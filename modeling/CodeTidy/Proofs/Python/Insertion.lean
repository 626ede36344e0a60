import CodeTidy.Proofs.Constant.Extraction
import CodeTidy.Proofs.Constant.Renamed
import CodeTidy.Proofs.Python.Header
import CodeTidy.Python.Header

/-!
# `CodeTidy.Proofs.Python.Insertion`: what is put in goes behind the head of a file

New imports and the definitions of constants go behind `importEnd`. Constants are
put in when the numbers of the file have got their names already, so their place
is looked for in the new lines. Naming numbers changes no part of the head into
something else. The theorems:

* `Renamed.isLead`, `isDocstring_of_forall₂`, `Renamed.isPlainImport`: the parts of
  the head when numbers have got their names.
* `prefix_insertImport`, `prefix_insertDefinitions`, `prefix_extractConstants`: what stands
  in front of the place that is found.
* `lt_importEnd_renamed`: where that place is when numbers have got their names.
* `importEnd_behind_import_iff`: when the place lies behind the first import, and that
  nothing is put in front of that import then.
-/

set_option autoImplicit false

namespace CodeTidy

open Text

/-! ### Lists element by element -/

section

variable {α β : Type} {R : α → β → Prop}

/-- What is related to two lists in a row are two lists in a row. -/
theorem exists_append_of_forall₂ {l₁ l₂ : List α} {l : List β} (h : List.Forall₂ R (l₁ ++ l₂) l) :
    ∃ l₁' l₂', l = l₁' ++ l₂' ∧ List.Forall₂ R l₁ l₁' ∧ List.Forall₂ R l₂ l₂' := by
  have htake := List.forall₂_take l₁.length h
  have hdrop := List.forall₂_drop l₁.length h
  rw [List.take_left] at htake
  rw [List.drop_left] at hdrop
  exact ⟨_, _, (List.take_append_drop l₁.length l).symm, htake, hdrop⟩

/-- What each step carries over holds of all. -/
theorem forall_of_forall₂ {l : List α} {l' : List β} (h : List.Forall₂ R l l') {P : α → Prop}
    {Q : β → Prop} (hstep : ∀ a b, R a b → P a → Q b) (hl : ∀ a ∈ l, P a) : ∀ b ∈ l', Q b := by
  induction h with
  | nil => exact List.forall_mem_nil Q
  | cons hab _ ih =>
    rw [List.forall_mem_cons] at hl ⊢
    exact ⟨hstep _ _ hab hl.1, ih hl.2⟩

end

namespace Python

open Constant Instruction

/-! ### The head when numbers have got their names -/

section

/-- White space is no digit. -/
theorem isDecimal_of_isBlank {c : Char} (h : isBlank c = true) : isDecimal c = false := by
  cases hdigit : isDecimal c with
  | false => rfl
  | true =>
    have hword := isWord_of_isDecimal hdigit
    rw [isWord_of_isBlank h] at hword
    cases hword

/-- The same for a stretch. -/
theorem all_digitless_of_blank {s : Text} (h : s.all isBlank = true) :
    s.all (fun c => !isDecimal c) = true :=
  List.all_eq_true.mpr fun c hc => by
    rw [isDecimal_of_isBlank (List.all_eq_true.mp h c hc)]
    rfl

/-- The quotes of a docstring are characters that are in no name and no number. -/
theorem quotes_spec {q : Text} (hq : q ∈ docstringQuotes) :
    q ≠ [] ∧ q.all (fun c => !isWord c) = true ∧ q.all (fun c => !isDecimal c) = true := by
  have hall : ∀ q ∈ docstringQuotes, q ≠ [] ∧ q.all (fun c => !isWord c) = true ∧
      q.all (fun c => !isDecimal c) = true := by decide
  exact hall q hq

variable {ns : List Text} {l l' q rest rest' : Text} (hns : ∀ n ∈ ns, IsNumber n)

include hns

/-- A line in front of the imports stays one. -/
theorem Renamed.isLead (h : Renamed ns l l') (hl : IsLead l) : IsLead l' := by
  rcases hl with hblank | hstart
  · rw [h.eq_of_digitless hns (all_digitless_of_blank hblank)]
    exact .inl hblank
  · obtain ⟨r, rfl⟩ := List.isPrefixOf_iff_prefix.mp hstart
    obtain ⟨r', rfl, -⟩ := h.text_left hns (by decide)
    exact .inr (List.isPrefixOf_iff_prefix.mpr (List.prefix_append _ r'))

/-- A line that opens a docstring still does. -/
theorem Renamed.opens (h : Renamed ns l l') (hl : Opens q l rest) :
    ∃ rest', Opens q l' rest' ∧ Renamed ns rest rest' := by
  obtain ⟨hq, rfl | ⟨c, hc, rfl⟩⟩ := hl
  · obtain ⟨rest', rfl, hrest⟩ := h.text_left hns (quotes_spec hq).2.2
    exact ⟨rest', ⟨hq, .inl rfl⟩, hrest⟩
  · have hletters : docstringPrefixes.all (fun c => !isDecimal c) = true := by decide
    have hdigitless : (c :: q).all (fun c => !isDecimal c) = true := by
      rw [List.all_cons, List.all_eq_true.mp hletters c hc, (quotes_spec hq).2.2]
      rfl
    obtain ⟨rest', rfl, hrest⟩ := Renamed.text_left (w := c :: q) hns hdigitless h
    exact ⟨rest', ⟨hq, .inr ⟨c, hc, rfl⟩⟩, hrest⟩

/-- A line that does not hold the quotes of a docstring does not get them. -/
theorem Renamed.misses (hq : q ∈ docstringQuotes) (h : Renamed ns l l') (hl : ¬q <:+: l) :
    ¬q <:+: l' := by
  rintro ⟨v, w, rfl⟩
  rw [List.append_assoc] at h
  obtain ⟨u', v', rfl, -⟩ := h.stretch hns (quotes_spec hq).1 (quotes_spec hq).2.1
  exact hl ⟨u', v', List.append_assoc _ _ _⟩

/-- A line that closes a docstring still does. -/
theorem Renamed.closes (hq : q ∈ docstringQuotes) (h : Renamed ns l l') (hl : Closes q l) :
    Closes q l' := by
  obtain ⟨hne, hwordless, hdigitless⟩ := quotes_spec hq
  obtain ⟨⟨front, rfl⟩, hlast⟩ := hl
  constructor
  · obtain ⟨c, q, rfl⟩ := List.exists_cons_of_ne_nil hne
    rw [List.all_cons, Bool.and_eq_true, Bool.not_eq_true'] at hdigitless
    obtain ⟨front', rest, rfl, -, hrest⟩ := h.cut_left hns hdigitless.1
    rw [hrest.eq_of_digitless hns hdigitless.2]
    exact List.suffix_append front' (c :: q)
  · -- A second place for the quotes in the new line would be one in the old line.
    rintro ⟨v, w, hinfix⟩
    have hne' : l' ≠ [] := by
      rintro rfl
      exact hne (List.append_eq_nil_iff.mp (List.append_eq_nil_iff.mp hinfix).1).2
    rw [← List.dropLast_append_getLast hne', ← hinfix, List.append_assoc, List.append_assoc] at h
    obtain ⟨v', w', hl, hw⟩ := h.stretch hns hne hwordless
    have hnonempty : w' ≠ [] := fun hnil =>
      List.append_ne_nil_of_right_ne_nil w (List.cons_ne_nil _ _) ((hw.eq_nil_iff hns).mp hnil)
    refine hlast ⟨v', w'.dropLast, ?_⟩
    rw [hl, ← List.append_assoc, List.dropLast_append_of_ne_nil hnonempty]

/-- A docstring stays one. -/
theorem isDocstring_of_forall₂ {doc doc' : List Text} (h : List.Forall₂ (Renamed ns) doc doc')
    (hdoc : IsDocstring doc) : IsDocstring doc' := by
  cases hdoc with
  | one hopens hcloses =>
    rw [List.forall₂_cons_left_iff] at h
    obtain ⟨l', ls', hl, hls, rfl⟩ := h
    obtain rfl := List.forall₂_nil_left_iff.mp hls
    obtain ⟨rest', hopens', hrest⟩ := Renamed.opens hns hl hopens
    exact .one hopens' (Renamed.closes hns hopens.1 hrest hcloses)
  -- The first line opens the docstring still, the last one closes it, and those between them do
  -- neither.
  | more hopens hrest hmid hcloses =>
    rw [List.forall₂_cons_left_iff] at h
    obtain ⟨l', ls', hl, hls, rfl⟩ := h
    obtain ⟨mid', last', rfl, hmid', hlast'⟩ := exists_append_of_forall₂ hls
    rw [List.forall₂_cons_left_iff] at hlast'
    obtain ⟨last', _, hlast, hnil, rfl⟩ := hlast'
    obtain rfl := List.forall₂_nil_left_iff.mp hnil
    obtain ⟨rest', hopens', hrest'⟩ := Renamed.opens hns hl hopens
    exact .more hopens' (Renamed.misses hns hopens.1 hrest' hrest)
      (forall_of_forall₂ hmid' (fun _ _ => Renamed.misses hns hopens.1) hmid)
      (Renamed.closes hns hopens.1 hlast hcloses)

/-- An import on one line stays one, whatever numbers in it get names. -/
theorem Renamed.isPlainImport (h : Renamed ns l l') (hl : IsPlainImport l) : IsPlainImport l' := by
  cases hl with
  | @modules gap rest c hne hgap hc =>
    obtain ⟨u₁, rfl, h₁⟩ := h.text_left hns (by decide)
    obtain ⟨u₂, rfl, h₂⟩ := h₁.text_left hns (all_digitless_of_blank hgap)
    obtain ⟨c', rest', rfl, hc'⟩ := h₂.exists_cons hns hc
    exact .modules hne hgap hc'
  | @names gap source gap' rest c hne hgap hsource hvisible hne' hgap' hc =>
    obtain ⟨u₁, rfl, h₁⟩ := h.text_left hns (by decide)
    obtain ⟨u₂, rfl, h₂⟩ := h₁.text_left hns (all_digitless_of_blank hgap)
    -- The name of the module ends at the first white space behind it.
    obtain ⟨b, gap', rfl⟩ := List.exists_cons_of_ne_nil hne'
    have hb := hgap'
    rw [List.all_cons, Bool.and_eq_true] at hb
    obtain ⟨source', u₃, rfl, hsource', h₃⟩ := h₂.cut_left hns (isDecimal_of_isBlank hb.1)
    obtain ⟨u₄, rfl, h₄⟩ := h₃.text_left hns (all_digitless_of_blank hb.2)
    obtain ⟨u₅, rfl, h₅⟩ := h₄.text_left hns (by decide)
    have hdigitless : [c].all (fun c => !isDecimal c) = true := by
      rw [List.all_cons, isDecimal_of_isBlank hc]
      rfl
    obtain ⟨rest', rfl, -⟩ := Renamed.text_left (w := [c]) hns hdigitless h₅
    have hvisible' : source'.all (fun c => !isBlank c) = true := by
      refine hsource'.all hns (fun c hword => ?_) hvisible
      rw [Bool.not_eq_true', Bool.eq_false_iff]
      intro hblank
      rw [isWord_of_isBlank hblank] at hword
      cases hword
    exact .names hne hgap (fun hnil => hsource ((hsource'.eq_nil_iff hns).mpr hnil)) hvisible'
      hne' hgap' hc

end

/-! ### What is put in -/

section

variable {header : List Text} {t : Text}

/-- An import goes behind the lines that the head of the file has at least. -/
theorem prefix_insertImport (h : header <+: lines t) (hend : header.length ≤ importEnd (lines t))
    (statement : Text) : header <+: lines (insertImport statement t) := by
  have hbefore : header <+: (lines t).take (importEnd (lines t)) :=
    List.prefix_take_iff.mpr ⟨h, hend⟩
  have hnew : header <+: insertAt (importEnd (lines t)) [statement] (lines t) := by
    rw [insertAt, List.append_assoc]
    exact hbefore.trans (List.prefix_append _ _)
  exact prefix_lines_unlines hnew fun l hl => not_mem_of_mem_lines (h.subset hl)

/-- So do definitions, in every language whose files have a head. -/
theorem prefix_insertDefinitions {family : Family} {ls : List Text} (h : header <+: ls)
    (hend : header.length ≤ headLength family ls) (definitions : List Text) :
    header <+: insertDefinitions family definitions ls := by
  have hbefore : header <+: ls.take (headLength family ls) := List.prefix_take_iff.mpr ⟨h, hend⟩
  show header <+: ls.take (headLength family ls) ++ _ ++ _
  rw [List.append_assoc]
  exact hbefore.trans (List.prefix_append _ _)

/-- What is extracted are numbers. -/
theorem isNumber_of_mem_extractedNumbers {family : Family} :
    ∀ n ∈ extractedNumbers family t, IsNumber n :=
  fun _ hn => spec_of_mem_numbersIn (mem_of_mem_repeated hn)

/-- Constants go behind the lines that the head of the file has at least, whatever numbers get
their names in it. -/
theorem prefix_extractConstants (h : header <+: lines t)
    (hend : ∀ ls, List.Forall₂ (Renamed (extractedNumbers .python t)) (lines t) ls →
      header.length ≤ importEnd ls) :
    ∃ header', List.Forall₂ (Renamed (extractedNumbers .python t)) header header' ∧
      header' <+: lines (extractConstants .python t) := by
  by_cases hnone : extractedNumbers .python t = []
  · have hsame : extractConstants .python t = t := if_pos (List.isEmpty_iff.mpr hnone)
    rw [hsame]
    exact ⟨header, List.forall₂_same.mpr fun l _ => Renamed.refl _ l, h⟩
  · have hnew : extractConstants .python t = unlines (insertDefinitions .python
        ((extractedNumbers .python t).map (definition .python))
        (lines (substitute (literals .python) (extractedNumbers .python t) t))) :=
      if_neg (mt List.isEmpty_iff.mp hnone)
    rw [hnew]
    -- The place is looked for in the lines with names, whose first ones are those of the head.
    generalize hls : lines (substitute (literals .python) (extractedNumbers .python t) t) = ls
    have hrenamed : List.Forall₂ (Renamed (extractedNumbers .python t)) (lines t) ls := by
      rw [← hls]
      exact (renamed_substitute (literals .python) _ t).forall₂_lines
        isNumber_of_mem_extractedNumbers
    have hlength : header.length ≤ headLength .python ls := hend ls hrenamed
    obtain ⟨more, hmore⟩ := h
    rw [← hmore] at hrenamed
    obtain ⟨header', more', rfl, hheader, -⟩ := exists_append_of_forall₂ hrenamed
    rw [hheader.length_eq] at hlength
    refine ⟨header', hheader, prefix_lines_unlines ?_ fun l hl => ?_⟩
    · exact prefix_insertDefinitions (List.prefix_append header' more') hlength _
    · exact not_mem_of_mem_lines (hls ▸ List.mem_append_left more' hl)

end

/-- No import and no constant is put in front of the last of the lines that the text begins with.
Numbers in them may get names. -/
def StaysFirst (header : List Text) (t : Text) : Prop :=
  (∀ statement, header <+: lines (insertImport statement t)) ∧
    ∃ header', List.Forall₂ (Renamed (extractedNumbers .python t)) header header' ∧
      header' <+: lines (extractConstants .python t)

section

variable {lead doc : List Text} {imp : Text}

/-- The head reaches over the first import also when numbers in the file have got their names: its
parts are still what they were. -/
theorem lt_importEnd_renamed {ns rest ls : List Text} (hns : ∀ n ∈ ns, IsNumber n)
    (hlead : ∀ l ∈ lead, IsLead l) (hdoc : doc = [] ∨ IsDocstring doc)
    (hfirst : lead = [] ∨ doc = []) (hplain : IsPlainImport imp)
    (h : List.Forall₂ (Renamed ns) (lead ++ doc ++ imp :: rest) ls) :
    (lead ++ doc).length < importEnd ls := by
  obtain ⟨front, behind, rfl, hfront, hbehind⟩ := exists_append_of_forall₂ h
  obtain ⟨lead', doc', rfl, hlead', hdoc'⟩ := exists_append_of_forall₂ hfront
  rw [List.forall₂_cons_left_iff] at hbehind
  obtain ⟨imp', rest', himp', -, rfl⟩ := hbehind
  have hempty {ls ls' : List Text} (h : List.Forall₂ (Renamed ns) ls ls') (hls : ls = []) :
      ls' = [] := List.forall₂_nil_left_iff.mp (hls ▸ h)
  have hleads : ∀ l ∈ lead', IsLead l :=
    forall_of_forall₂ hlead' (fun _ _ => Renamed.isLead hns) hlead
  have hdocs : doc' = [] ∨ IsDocstring doc' :=
    hdoc.imp (hempty hdoc') (isDocstring_of_forall₂ hns hdoc')
  have hfirsts : lead' = [] ∨ doc' = [] := hfirst.imp (hempty hlead') (hempty hdoc')
  have hplain' := Renamed.isPlainImport hns himp' hplain
  rw [hfront.length_eq]
  exact (lt_importEnd_iff hleads hdocs hplain'.beginsImport rest').mpr ⟨hfirsts, hplain'⟩

/-- The head of a file reaches over the first import exactly if no docstring stands behind other
lines, and the import has white space where the pattern for imports asks for it. Then nothing is
put in front of that import. -/
theorem importEnd_behind_import_iff (hlead : ∀ l ∈ lead, IsLead l)
    (hdoc : doc = [] ∨ IsDocstring doc) (himp : BeginsImport imp) (rest : List Text) :
    ((lead ++ doc).length < importEnd (lead ++ doc ++ imp :: rest) ↔
      (lead = [] ∨ doc = []) ∧ IsPlainImport imp) ∧
    (lead = [] ∨ doc = [] → IsPlainImport imp → ∀ t, lines t = lead ++ doc ++ imp :: rest →
      StaysFirst (lead ++ doc ++ [imp]) t) := by
  have hiff := lt_importEnd_iff hlead hdoc himp rest
  refine ⟨hiff, fun hfirst hplain t ht => ?_⟩
  have hprefix : lead ++ doc ++ [imp] <+: lines t := ⟨rest, by rw [ht]; simp⟩
  have hlength : (lead ++ doc ++ [imp]).length = (lead ++ doc).length + 1 := by
    rw [List.length_append, List.length_singleton]
  constructor
  · refine prefix_insertImport hprefix ?_
    rw [ht, hlength]
    exact hiff.mpr ⟨hfirst, hplain⟩
  · refine prefix_extractConstants hprefix fun ls hls => ?_
    rw [ht] at hls
    rw [hlength]
    exact lt_importEnd_renamed isNumber_of_mem_extractedNumbers hlead hdoc hfirst hplain hls

/-- The theorem at a file with a docstring of two lines. -/
theorem importEnd_behind_import_loading :
    IsDocstring ["\"\"\"Loads rows.".toList, "\"\"\"".toList] ∧
      IsPlainImport "from __future__ import annotations" ∧
      2 < importEnd ["\"\"\"Loads rows.".toList, "\"\"\"".toList,
        "from __future__ import annotations".toList, "load(404, 404, 404)".toList] ∧
      StaysFirst ["\"\"\"Loads rows.".toList, "\"\"\"".toList,
          "from __future__ import annotations".toList]
        "\"\"\"Loads rows.\n\"\"\"\nfrom __future__ import annotations\nload(404, 404, 404)" := by
  have hopens : Opens "\"\"\"" "\"\"\"Loads rows." "Loads rows." := ⟨List.mem_cons_self, .inl rfl⟩
  have hdoc : IsDocstring ["\"\"\"Loads rows.".toList, "\"\"\"".toList] :=
    IsDocstring.more hopens (by decide +kernel) (List.forall_mem_nil _) (by decide +kernel)
  have hplain : IsPlainImport "from __future__ import annotations" :=
    isStart_importLine_iff.mp (by decide +kernel)
  obtain ⟨hiff, hstays⟩ := importEnd_behind_import_iff (List.forall_mem_nil IsLead)
    (.inr hdoc) hplain.beginsImport ["load(404, 404, 404)".toList]
  exact ⟨hdoc, hplain, hiff.mpr ⟨.inl rfl, hplain⟩,
    hstays (.inl rfl) hplain _ (by decide +kernel)⟩

/-- A docstring behind a comment is not found. New lines are put in front of both, and of
the one import that has to come first. -/
theorem importEnd_misses_docstring :
    IsLead "#!/usr/bin/env python" ∧ IsDocstring ["\"\"\"Loads rows.\"\"\"".toList] ∧
      IsPlainImport "from __future__ import annotations" ∧
      importEnd ["#!/usr/bin/env python".toList, "\"\"\"Loads rows.\"\"\"".toList,
        "from __future__ import annotations".toList, "load(404, 404, 404)".toList] = 0 ∧
      lines (insertImport "import ast" ("#!/usr/bin/env python\n\"\"\"Loads rows.\"\"\"\n" ++
        "from __future__ import annotations\nload(404, 404, 404)")) =
          ["import ast".toList, "#!/usr/bin/env python".toList,
            "\"\"\"Loads rows.\"\"\"".toList, "from __future__ import annotations".toList,
            "load(404, 404, 404)".toList] ∧
      (lines (extractConstants .python ("#!/usr/bin/env python\n\"\"\"Loads rows.\"\"\"\n" ++
        "from __future__ import annotations\nload(404, 404, 404)"))).head? =
          some "CONSTANT_404 = 404".toList := by
  refine ⟨.inr (by decide), ?_, isStart_importLine_iff.mp (by decide +kernel), by decide +kernel,
    by decide +kernel, by decide +kernel⟩
  have hopens : Opens "\"\"\"" "\"\"\"Loads rows.\"\"\"" "Loads rows.\"\"\"" :=
    ⟨List.mem_cons_self, .inl rfl⟩
  exact .one hopens (by decide +kernel)

end

end Python

end CodeTidy
