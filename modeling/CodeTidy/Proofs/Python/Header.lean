import CodeTidy.Proofs.Pattern.Leads
import CodeTidy.Proofs.Pattern.Spells
import CodeTidy.Proofs.Text.Lines
import CodeTidy.Proofs.Text.Tables
import CodeTidy.Python.Header

/-!
# `CodeTidy.Proofs.Python.Header`: the head of a file and where it ends

A file begins with blank lines and comments, then perhaps a docstring, and then
the first import. `importEnd` is meant to lie behind that import. It does so if
there is no docstring, or one on the first line, and the import has white space
where the pattern for imports asks for it. A docstring behind other lines is not
looked for: it counts as the first line of the code, and the head ends in front of
all lines. The theorems:

* `docstringLength_append`: a docstring on the first line is found, with its length.
* `isStart_importLine_iff`: the imports that the pattern knows.
* `le_importEndFrom`, `importEndFrom_lead`: one line after the other, and what has been
  found stays found.
* `importEnd_eq`, `importEnd_eq_zero`: the end of the head by the parts of it.
* `lt_importEnd_iff`: when it lies behind the first import.
-/

set_option autoImplicit false

namespace CodeTidy

open Text

namespace Python

open Pattern

/-! ### The lines at the head of a file -/

/-- A line that holds no code: it is blank, or begins with a comment. -/
def IsLead (l : Text) : Prop := allBlank l = true ∨ startsWith l "#" = true

/-- The quotes that a docstring stands between. -/
def docstringQuotes : List Text := ["\"\"\"".toList, "'''".toList]

/-- The letters that may stand in front of them. -/
def docstringPrefixes : Text := "rRuU".toList

/-- The line opens a docstring with the quotes `q` at its start, and goes on with `rest`. -/
def Opens (q l rest : Text) : Prop :=
  q ∈ docstringQuotes ∧
    (l = q ++ rest ∨ ∃ c ∈ docstringPrefixes, l = c :: (q ++ rest))

/-- The quotes end the line, and stand nowhere in front of its end. -/
def Closes (q l : Text) : Prop := q <:+ l ∧ ¬q <:+: l.dropLast

instance (q l : Text) : Decidable (Closes q l) := inferInstanceAs (Decidable (_ ∧ _))

/-- The lines of a docstring that is opened at the start of the first line and closed at the end of
the last one. -/
inductive IsDocstring : List Text → Prop
  | one {q l rest : Text} (hopens : Opens q l rest) (hcloses : Closes q rest) : IsDocstring [l]
  | more {q l rest last : Text} {mid : List Text} (hopens : Opens q l rest) (hrest : ¬q <:+: rest)
      (hmid : ∀ m ∈ mid, ¬q <:+: m) (hcloses : Closes q last) :
      IsDocstring (l :: (mid ++ [last]))

/-- A line that begins with the keyword of an import. -/
def BeginsImport (l : Text) : Prop :=
  ∃ w ∈ ["import".toList, "from".toList], ∃ r, l = w ++ r ∧
    r.head?.all (fun c => !isWord c) = true

/-- An import with white space in front of what it imports, and around the module that it imports
from. -/
inductive IsPlainImport : Text → Prop
  | modules {gap rest : Text} {c : Char} (hne : gap ≠ []) (hgap : gap.all isBlank = true)
      (hc : isWord c = true) : IsPlainImport ("import".toList ++ (gap ++ c :: rest))
  | names {gap source gap' rest : Text} {c : Char} (hne : gap ≠ [])
      (hgap : gap.all isBlank = true) (hsource : source ≠ [])
      (hvisible : source.all (fun c => !isBlank c) = true) (hne' : gap' ≠ [])
      (hgap' : gap'.all isBlank = true) (hc : isBlank c = true) :
      IsPlainImport ("from".toList ++ (gap ++ (source ++ (gap' ++ ("import".toList ++ c :: rest)))))

section

variable {q l rest : Text}

/-- The characters that an opened docstring may begin with. -/
def docstringHeads : Text := docstringPrefixes ++ "\"'".toList

/-- The characters that the keywords of imports begin with. -/
def importHeads : Text := "if".toList

/-- They are all code. -/
theorem heads_spec {c : Char} (hc : c ∈ docstringHeads ++ importHeads) :
    isBlank c = false ∧ isIndent c = false ∧ c ≠ '#' := by
  have hall : (docstringHeads ++ importHeads).all
      (fun c => !isBlank c && !isIndent c && c != '#') = true := by decide
  simpa [and_assoc] using List.all_eq_true.mp hall c hc

/-- They tell docstrings from imports. -/
theorem disjoint_heads : List.Disjoint docstringHeads importHeads := by
  have hall : docstringHeads.all (fun c => !importHeads.contains c) = true := by decide
  intro c hc hc'
  have hnot := List.all_eq_true.mp hall c hc
  rw [List.contains_iff_mem.mpr hc'] at hnot
  cases hnot

/-- What begins a docstring or an import is not one of the lines in front of it. -/
theorem not_isLead_of_mem {c : Char} {r : Text} (hc : c ∈ docstringHeads ++ importHeads) :
    ¬IsLead (c :: r) := by
  obtain ⟨hvisible, -, hmark⟩ := heads_spec hc
  rintro (hblank | hstart)
  · rw [allBlank, List.all_cons, hvisible] at hblank
    cases hblank
  · obtain ⟨r', hr⟩ := List.isPrefixOf_iff_prefix.mp hstart
    exact hmark (List.cons.inj hr).1.symm

/-- The quotes of a docstring begin with a quote. -/
theorem exists_cons_of_mem_quotes (hq : q ∈ docstringQuotes) :
    ∃ c r, q = c :: r ∧ c ∈ "\"'".toList := by
  simp only [docstringQuotes, List.mem_cons, List.not_mem_nil, or_false] at hq
  rcases hq with rfl | rfl
  · exact ⟨'"', _, rfl, by decide⟩
  · exact ⟨'\'', _, rfl, by decide⟩

/-- A line that opens a docstring begins as such. -/
theorem Opens.exists_cons (h : Opens q l rest) : ∃ c r, l = c :: r ∧ c ∈ docstringHeads := by
  obtain ⟨hq, rfl | ⟨c, hc, rfl⟩⟩ := h
  · obtain ⟨c, r, rfl, hc⟩ := exists_cons_of_mem_quotes hq
    exact ⟨c, r ++ rest, rfl, List.mem_append_right docstringPrefixes hc⟩
  · exact ⟨c, _, rfl, List.mem_append_left "\"'".toList hc⟩

/-- A docstring has a first line, which opens it. -/
theorem IsDocstring.exists_cons {doc : List Text} (h : IsDocstring doc) :
    ∃ q l rest ls, Opens q l rest ∧ doc = l :: ls := by
  cases h with
  | one hopens => exact ⟨_, _, _, [], hopens, rfl⟩
  | more hopens => exact ⟨_, _, _, _, hopens, rfl⟩

/-- A line that begins an import begins with its keyword. -/
theorem BeginsImport.exists_cons (h : BeginsImport l) :
    ∃ c r, l = c :: r ∧ c ∈ importHeads := by
  obtain ⟨w, hw, r, rfl, -⟩ := h
  simp only [List.mem_cons, List.not_mem_nil, or_false] at hw
  rcases hw with rfl | rfl
  · exact ⟨'i', _, rfl, by decide⟩
  · exact ⟨'f', _, rfl, by decide⟩

/-- An import on one line begins an import. -/
theorem IsPlainImport.beginsImport (h : IsPlainImport l) : BeginsImport l := by
  have hgap_word {gap r : Text} (hne : gap ≠ []) (hgap : gap.all isBlank = true) :
      (gap ++ r).head?.all (fun c => !isWord c) = true := by
    obtain ⟨c, gap, rfl⟩ := List.exists_cons_of_ne_nil hne
    rw [List.all_cons, Bool.and_eq_true] at hgap
    rw [List.cons_append, List.head?_cons, Option.all_some, isWord_of_isBlank hgap.1]
    rfl
  cases h with
  | modules hne hgap _ => exact ⟨_, List.mem_cons_self, _, rfl, hgap_word hne hgap⟩
  | names hne hgap _ _ _ _ _ =>
    exact ⟨_, List.mem_cons_of_mem _ List.mem_cons_self, _, rfl, hgap_word hne hgap⟩

/-- A line that begins an import is not one of those in front of it. -/
theorem BeginsImport.not_isLead (h : BeginsImport l) : ¬IsLead l := by
  obtain ⟨c, r, rfl, hc⟩ := h.exists_cons
  exact not_isLead_of_mem (List.mem_append_right docstringHeads hc)

/-- A line that opens a docstring is not one of those in front of it. -/
theorem Opens.not_isLead (h : Opens q l rest) : ¬IsLead l := by
  obtain ⟨c, r, rfl, hc⟩ := h.exists_cons
  exact not_isLead_of_mem (List.mem_append_left importHeads hc)

/-- A line that opens a docstring begins no import. -/
theorem Opens.not_beginsImport (h : Opens q l rest) : ¬BeginsImport l := by
  intro himport
  obtain ⟨c, r, rfl, hc⟩ := h.exists_cons
  obtain ⟨c', r', hl, hc'⟩ := himport.exists_cons
  exact disjoint_heads hc ((List.cons.inj hl).1 ▸ hc')

/-! ### Docstrings -/

/-- The quotes that open a docstring are read, wherever they stand. -/
theorem leads_docstringQuotes {c : Cursor} (hq : q ∈ docstringQuotes)
    (hafter : c.after = q ++ rest) : ∃ c', c.Reads q c' ∧ c'.after = rest ∧
      Leads (.group 1 (oneOf ["\"\"\"", "'''"])) c [] c' [(1, ⟨c, c'⟩)] := by
  obtain ⟨c', hreads, hrest⟩ := Cursor.exists_reads hafter
  refine ⟨c', hreads, hrest, Leads.group ?_⟩
  simp only [docstringQuotes, List.mem_cons, List.not_mem_nil, or_false] at hq
  rcases hq with rfl | rfl
  · exact Leads.oneOf (leads_text hreads) [] (by simp)
  · refine Leads.oneOf (leads_text hreads) [_] ?_
    rw [List.forall_mem_singleton]
    intro d caps' htakes
    have hother := (takes_text_iff.mp htakes).1.after_eq
    rw [hafter] at hother
    exact absurd (List.cons.inj hother).1 (by decide)

/-- The pattern for docstrings finds the quotes that a line opens one with. -/
theorem matchStart?_docstringStart (h : Opens q l rest) :
    ∃ m, docstringStart.matchStart? l = some m ∧ m.group 1 = q ∧ m.stop.after = rest := by
  have hindent : Leads indent (Cursor.start l) [] (Cursor.start l) [] := by
    refine leads_run (u := []) rfl (Nat.zero_le _) (.refl _) ?_
    obtain ⟨a, r, rfl, ha⟩ := h.exists_cons
    exact (heads_spec (List.mem_append_left importHeads ha)).2.1
  -- However the quotes are reached, they are the group.
  have hfound {c c' : Cursor} (hreads : c.Reads q c') (hrest : c'.after = rest)
      (hleads : Leads docstringStart (Cursor.start l) [] c' [(1, ⟨c, c'⟩)]) :
      ∃ m, docstringStart.matchStart? l = some m ∧ m.group 1 = q ∧ m.stop.after = rest :=
    ⟨_, hleads.matchAt?, Match.group_of_lookup rfl hreads, hrest⟩
  obtain ⟨hq, rfl | ⟨b, hb, rfl⟩⟩ := h
  · obtain ⟨c', hreads, hrest, hquotes⟩ := leads_docstringQuotes (c := Cursor.start _) hq rfl
    -- No quote is one of the letters, so the way without a letter is the first one.
    have hnone : ∀ d caps',
        ¬Takes (.one (CharSet.of "rRuU")) (Cursor.start (q ++ rest)) [] d caps' := by
      rintro d caps' ⟨b, hb, hread, -⟩
      have hhead : q ++ rest = [b] ++ d.after := hread.after_eq
      have hplain : "\"'".toList.all (fun c => !CharSet.of "rRuU" c) = true := by decide
      obtain ⟨a, r, rfl, ha⟩ := exists_cons_of_mem_quotes hq
      have hnot := List.all_eq_true.mp hplain a ha
      rw [(List.cons.inj hhead).1, hb] at hnot
      cases hnot
    exact hfound hreads hrest (hindent.both ((leads_empty.right hnone).both hquotes))
  · obtain ⟨c, hread, hafter⟩ := Cursor.exists_reads (c := Cursor.start (b :: (q ++ rest)))
      (u := [b]) rfl
    obtain ⟨c', hreads, hrest, hquotes⟩ := leads_docstringQuotes hq hafter
    have hletter : CharSet.of "rRuU" b = true := List.contains_iff_mem.mpr hb
    exact hfound hreads hrest (hindent.both ((leads_one hletter hread).left.both hquotes))

/-- The pattern for docstrings needs a quote, or a letter in front of one. -/
theorem exists_of_docstringStart {m : Match} (h : docstringStart.matchStart? l = some m) :
    ∃ s c r, l = s ++ c :: r ∧ s.all isIndent = true ∧ c ∈ docstringHeads := by
  have hstart : docstringStart.isStart l = true := by
    rw [Pattern.isStart, h]
    rfl
  obtain ⟨u, r, e, rfl, hspells⟩ := (isStart_iff_spells (by rfl)).mp hstart
  obtain ⟨s, hs, -, w, rfl, front, e₁, hfront, v, rfl, _, hquotes, -⟩ := spells_run_then.mp hspells
  rcases spells_opt.mp hfront with ⟨c, hc, rfl, -⟩ | ⟨rfl, -⟩
  · refine ⟨s, c, v ++ r, by simp, hs, ?_⟩
    exact List.mem_append_left "\"'".toList (List.contains_iff_mem.mp hc)
  · have hq : v ∈ docstringQuotes := by
      rcases hquotes with hquotes | hquotes
      · rw [← (spells_text.mp hquotes).1]
        exact List.mem_cons_self
      · rw [← (spells_text.mp hquotes).1]
        exact List.mem_cons_of_mem _ List.mem_cons_self
    obtain ⟨c, q', rfl, hc⟩ := exists_cons_of_mem_quotes hq
    exact ⟨s, c, q' ++ r, by simp, hs, List.mem_append_right docstringPrefixes hc⟩

/-- No docstring is found on a line that begins with another character. -/
theorem docstringLength_eq_zero {c : Char} {r : Text} (hindent : isIndent c = false)
    (hc : c ∉ docstringHeads) (ls : List Text) : docstringLength ((c :: r) :: ls) = 0 := by
  rw [docstringLength]
  split
  · rfl
  · next m hm =>
    obtain ⟨s, a, r', hl, hs, ha⟩ := exists_of_docstringStart hm
    cases s with
    | nil => exact absurd ((List.cons.inj hl).1 ▸ ha) hc
    | cons b s =>
      rw [List.all_cons, Bool.and_eq_true, ← (List.cons.inj hl).1, hindent] at hs
      cases hs.1

/-- No docstring begins with a comment or a blank line. -/
theorem docstringLength_of_isLead (h : IsLead l) (ls : List Text) :
    docstringLength (l :: ls) = 0 := by
  rcases h with hblank | hstart
  · rw [docstringLength]
    split
    · rfl
    · next m hm =>
      obtain ⟨s, c, r, rfl, -, hc⟩ := exists_of_docstringStart hm
      have hall := List.all_eq_true.mp hblank c (List.mem_append_right s List.mem_cons_self)
      rw [(heads_spec (List.mem_append_left importHeads hc)).1] at hall
      cases hall
  · obtain ⟨r, rfl⟩ := List.isPrefixOf_iff_prefix.mp hstart
    exact docstringLength_eq_zero (by decide) (by decide) ls

/-- No docstring begins with an import. -/
theorem docstringLength_of_beginsImport (h : BeginsImport l) (ls : List Text) :
    docstringLength (l :: ls) = 0 := by
  obtain ⟨c, r, rfl, hc⟩ := h.exists_cons
  obtain ⟨-, hindent, -⟩ := heads_spec (List.mem_append_right docstringHeads hc)
  exact docstringLength_eq_zero hindent (fun hc' => disjoint_heads hc' hc) ls

/-- The first line that holds a part, behind lines that do not. -/
theorem linesThrough?_append {part last : Text} {mid : List Text} (hmid : ∀ m ∈ mid, ¬part <:+: m)
    (hlast : part <:+: last) (ls : List Text) :
    linesThrough? part (mid ++ last :: ls) = some (mid.length + 1) := by
  induction mid with
  | nil => rw [List.nil_append, linesThrough?, if_pos (holds_iff.mpr hlast), List.length_nil]
  | cons m mid ih =>
    rw [List.forall_mem_cons] at hmid
    rw [List.cons_append, linesThrough?, if_neg (mt holds_iff.mp hmid.1), ih hmid.2,
      Option.map_some, List.length_cons]

/-- A docstring on the first line is found as a whole. -/
theorem docstringLength_append {doc : List Text} (h : IsDocstring doc) (ls : List Text) :
    docstringLength (doc ++ ls) = doc.length := by
  cases h with
  | one hopens hcloses =>
    obtain ⟨m, hm, hgroup, hrest⟩ := matchStart?_docstringStart hopens
    rw [List.singleton_append, docstringLength, hm]
    dsimp only
    rw [hgroup, hrest, if_pos (holds_iff.mpr hcloses.1.isInfix), List.length_singleton]
  | @more q l rest last mid hopens hrest hmid hcloses =>
    -- The first line does not close it, and of the others the last one is the first to do so.
    obtain ⟨m, hm, hgroup, hafter⟩ := matchStart?_docstringStart hopens
    have hthrough := linesThrough?_append hmid hcloses.1.isInfix ls
    rw [List.cons_append, List.append_assoc, List.singleton_append, docstringLength, hm]
    dsimp only
    rw [hgroup, hafter, if_neg (mt holds_iff.mp hrest), hthrough]
    simp

/-! ### Imports -/

/-- The pattern for imports knows those with the white space that it asks for. -/
theorem isStart_importLine_iff : importLine.isStart l = true ↔ IsPlainImport l := by
  rw [isStart_iff_spells (by rfl)]
  constructor
  · -- What is spelled is taken apart word by word, and put together with the rest of the line.
    rintro ⟨u, r, e, rfl, hspells⟩
    rcases spells_oneOf.mp hspells with hmodules | hnames
    · obtain ⟨w, rfl, hrest⟩ := spells_text_then.mp hmodules
      obtain ⟨gap, hgap, hne, w, rfl, c, hc, rfl, -⟩ := spells_run_then.mp hrest
      have hshape : "import".toList ++ (gap ++ [c]) ++ r = "import".toList ++ (gap ++ c :: r) := by
        simp
      rw [hshape]
      exact .modules (List.ne_nil_of_length_pos hne) hgap hc
    · obtain ⟨w, rfl, hrest₁⟩ := spells_text_then.mp (spells_oneOf_one.mp hnames)
      obtain ⟨gap, hgap, hne, w, rfl, hrest₂⟩ := spells_run_then.mp hrest₁
      obtain ⟨source, hvisible, hsource, w, rfl, hrest₃⟩ := spells_run_then.mp hrest₂
      obtain ⟨gap', hgap', hne', w, rfl, hrest₄⟩ := spells_run_then.mp hrest₃
      obtain ⟨w, rfl, c, hc, rfl, -⟩ := spells_text_then.mp hrest₄
      have hshape : "from".toList ++ (gap ++ (source ++ (gap' ++ ("import".toList ++ [c])))) ++ r =
          "from".toList ++ (gap ++ (source ++ (gap' ++ ("import".toList ++ c :: r)))) := by
        simp
      rw [hshape]
      exact .names (List.ne_nil_of_length_pos hne) hgap (List.ne_nil_of_length_pos hsource) hvisible
        (List.ne_nil_of_length_pos hne') hgap' hc
  · intro h
    cases h with
    | @modules gap rest c hne hgap hc =>
      refine ⟨"import".toList ++ (gap ++ [c]), rest, [], by simp, ?_⟩
      refine spells_oneOf.mpr (.inl (spells_text_then.mpr ⟨gap ++ [c], rfl, ?_⟩))
      exact spells_run_then.mpr
        ⟨gap, hgap, List.length_pos_of_ne_nil hne, [c], rfl, c, hc, rfl, rfl⟩
    | @names gap source gap' rest c hne hgap hsource hvisible hne' hgap' hc =>
      refine ⟨"from".toList ++ (gap ++ (source ++ (gap' ++ ("import".toList ++ [c])))), rest, [],
        by simp, ?_⟩
      refine spells_oneOf.mpr (.inr (spells_oneOf_one.mpr (spells_text_then.mpr ⟨_, rfl, ?_⟩)))
      refine spells_run_then.mpr ⟨gap, hgap, List.length_pos_of_ne_nil hne, _, rfl, ?_⟩
      refine spells_run_then.mpr ⟨source, hvisible, List.length_pos_of_ne_nil hsource, _, rfl, ?_⟩
      refine spells_run_then.mpr ⟨gap', hgap', List.length_pos_of_ne_nil hne', _, rfl, ?_⟩
      exact spells_text_then.mpr ⟨[c], rfl, c, hc, rfl, rfl⟩

/-! ### The end of the head -/

/-- What has been found stays found. The invariant of the walk is that nothing has been found
behind the lines that are passed or still belong to an import. -/
theorem le_importEndFrom {skip seen found : Nat} (h : found ≤ seen + skip) (ls : List Text) :
    found ≤ importEndFrom skip seen found ls := by
  induction ls generalizing skip seen found with
  | nil => exact Nat.le_of_eq (by cases skip <;> rfl)
  | cons l ls ih =>
    cases skip with
    | succ skip => exact ih (by omega)
    | zero =>
      rw [importEndFrom]
      split
      · -- An import is found at the end of its lines, all of which are still to come.
        dsimp only
        refine Nat.le_trans ?_ (ih (Nat.le_refl _))
        omega
      · split
        · exact Nat.le_refl found
        · exact ih (by omega)

/-- Lines without code are passed over. -/
theorem importEndFrom_lead {lead : List Text} (h : ∀ l ∈ lead, IsLead l) (seen found : Nat)
    (ls : List Text) :
    importEndFrom 0 seen found (lead ++ ls) = importEndFrom 0 (seen + lead.length) found ls := by
  induction lead generalizing seen with
  | nil => rfl
  | cons l lead ih =>
    rw [List.forall_mem_cons] at h
    have himport : ¬IsPlainImport l := fun himport => himport.beginsImport.not_isLead h.1
    have hblank : ¬((!allBlank l && !startsWith l "#") = true) := by
      rw [Bool.and_eq_true, Bool.not_eq_true', Bool.not_eq_true']
      rintro ⟨hblank, hstart⟩
      rcases h.1 with h | h
      · rw [hblank] at h
        cases h
      · rw [hstart] at h
        cases h
    rw [List.cons_append, importEndFrom,
      if_neg (mt isStart_importLine_iff.mp himport), if_neg hblank, ih h.2, List.length_cons,
      Nat.add_assoc, Nat.add_comm 1]

/-- At other code the head has ended. -/
theorem importEndFrom_code (hlead : ¬IsLead l) (himport : ¬IsPlainImport l) (seen found : Nat)
    (ls : List Text) : importEndFrom 0 seen found (l :: ls) = found := by
  rw [IsLead, not_or, Bool.not_eq_true, Bool.not_eq_true] at hlead
  rw [importEndFrom, if_neg (mt isStart_importLine_iff.mp himport), hlead.1, hlead.2]
  rfl

/-- Behind an import the head goes on. -/
theorem lt_importEndFrom (himport : IsPlainImport l) (seen found : Nat) (ls : List Text) :
    seen < importEndFrom 0 seen found (l :: ls) := by
  rw [importEndFrom, if_pos (isStart_importLine_iff.mpr himport)]
  refine Nat.lt_of_lt_of_le ?_ (le_importEndFrom (Nat.le_refl _) ls)
  omega

section

variable {lead doc : List Text} {imp : Text}

/-- The end of the head is looked for from the first import on, if nothing stands in front of a
docstring. -/
theorem importEnd_eq (hlead : ∀ l ∈ lead, IsLead l) (hdoc : doc = [] ∨ IsDocstring doc)
    (hfirst : lead = [] ∨ doc = []) (himp : BeginsImport imp) (ls : List Text) :
    importEnd (lead ++ doc ++ imp :: ls) =
      importEndFrom 0 (lead ++ doc).length doc.length (imp :: ls) := by
  by_cases hnone : doc = []
  · subst hnone
    have hzero : docstringLength (lead ++ [] ++ imp :: ls) = 0 := by
      rw [List.append_nil]
      cases lead with
      | nil => exact docstringLength_of_beginsImport himp ls
      | cons l lead => exact docstringLength_of_isLead (hlead l List.mem_cons_self) _
    rw [importEnd, hzero, List.drop_zero, List.append_nil, importEndFrom_lead hlead, Nat.zero_add,
      List.length_nil]
  · obtain rfl := hfirst.resolve_right hnone
    have hlength := docstringLength_append (hdoc.resolve_left hnone) (imp :: ls)
    rw [List.nil_append, importEnd, hlength, List.drop_left]

/-- A docstring behind other lines is taken for code. -/
theorem importEnd_eq_zero (hlead : ∀ l ∈ lead, IsLead l) (hne : lead ≠ []) (hdoc : IsDocstring doc)
    (ls : List Text) : importEnd (lead ++ doc ++ ls) = 0 := by
  obtain ⟨q, l, rest, doc, hopens, rfl⟩ := hdoc.exists_cons
  have hplain : ¬IsPlainImport l := fun hplain => hopens.not_beginsImport hplain.beginsImport
  have hzero : docstringLength (lead ++ l :: (doc ++ ls)) = 0 := by
    cases lead with
    | nil => exact absurd rfl hne
    | cons l' lead => exact docstringLength_of_isLead (hlead l' List.mem_cons_self) _
  rw [List.append_assoc, List.cons_append, importEnd, hzero, List.drop_zero,
    importEndFrom_lead hlead, importEndFrom_code hopens.not_isLead hplain]

/-- When the first import belongs to the head. -/
theorem lt_importEnd_iff (hlead : ∀ l ∈ lead, IsLead l) (hdoc : doc = [] ∨ IsDocstring doc)
    (himp : BeginsImport imp) (ls : List Text) :
    (lead ++ doc).length < importEnd (lead ++ doc ++ imp :: ls) ↔
      (lead = [] ∨ doc = []) ∧ IsPlainImport imp := by
  by_cases hfirst : lead = [] ∨ doc = []
  · rw [importEnd_eq hlead hdoc hfirst himp]
    by_cases hplain : IsPlainImport imp
    · exact iff_of_true (lt_importEndFrom hplain _ _ ls) ⟨hfirst, hplain⟩
    · rw [importEndFrom_code himp.not_isLead hplain, List.length_append]
      exact iff_of_false (by omega) (fun h => hplain h.2)
  · have hboth := not_or.mp hfirst
    rw [importEnd_eq_zero hlead hboth.1 (hdoc.resolve_left hboth.2)]
    exact iff_of_false (Nat.not_lt_zero _) (fun h => hfirst h.1)

end

end

end Python

end CodeTidy
