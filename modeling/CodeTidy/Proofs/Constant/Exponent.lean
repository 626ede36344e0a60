import CodeTidy.Proofs.Constant.Extraction
import CodeTidy.Proofs.Pattern.Places

/-!
# `CodeTidy.Proofs.Constant.Exponent`: exponents that count as numbers

A number is told from a part of something longer by one character on each side:
a letter, a digit, an underscore or a point there means that it is none. The
exponent of `1e300` has a letter in front of it and is left alone, but that of
`1e-300` stands behind a sign, so it is counted and named like any other number.
The theorems:

* `mem_hits_number`: a number is found wherever one matches.
* `exists_gaps_named`: a text is made of the numbers that get names and of what is
  kept.
* `sparesExponents_iff`: exponents are left alone exactly if none has a sign and the
  digits of a number that gets a name.
* `extraction_spares_exponents_iff`: the same for texts and for notebooks.
* `extraction_names_exponents`: a text with exponents that get names.
-/

set_option autoImplicit false

namespace CodeTidy

open Pattern Text Constant

namespace Constant

/-! ### Every number is found -/

/-- No number begins within another one, so a number is found wherever one matches. -/
theorem mem_hits_number {t v : Text} {m : Match} (h : MatchesBehind number t v m) :
    m ∈ number.hits t := by
  refine mem_hits_of_matchesBehind isSolid_number h fun v' m' hm' hlt => ?_
  by_contra hover
  obtain ⟨-, hn', hreads', -⟩ := spec_of_matchAt? hm'.2
  obtain ⟨-, -, -, hfollows, -⟩ := spec_of_matchAt? h.2
  obtain ⟨w, rfl⟩ : v' <+: v := List.prefix_of_prefix_length_le
    ⟨m'.start.after, hm'.1.after_eq.symm⟩ ⟨m.start.after, h.1.after_eq.symm⟩ hlt.le
  rw [List.length_append] at hlt hover
  -- The character in front of the later number would be a digit of the earlier one.
  have hbegins : w <+: m'.text := List.prefix_of_prefix_length_le
    ⟨m.start.after, (hm'.1.after_of_split h.1 rfl).symm⟩ ⟨m'.stop.after, hreads'.after_eq.symm⟩
    (by omega)
  have hall : w.all isPart = true :=
    List.all_eq_true.mpr fun a ha => List.all_eq_true.mp hn'.all_isPart a (hbegins.subset ha)
  have hw : w ≠ [] := List.ne_nil_of_length_pos (by omega)
  have hlast : m.start.follows isPart = true := by
    rw [h.1.follows_start, List.getLast?_append_of_ne_nil _ hw]
    exact getLast?_any_isPart hall hw
  rw [hlast] at hfollows
  cases hfollows

/-! ### The numbers that get names -/

/-- The matches in a text that names take the places of, if the numbers `ns` get names. -/
def named (g : LiteralGrammar) (ns : List Text) (t : Text) : List Match :=
  (g.hitsOutside number t).filter (fun m => ns.elem m.text)

/-- Pieces that are kept as they are go to the gaps. -/
theorem exists_gaps_filter (keep : Match → Bool) (g : Text) (gaps : List Text) (ms : List Match)
    (hlength : gaps.length = ms.length) :
    ∃ g' gaps', gaps'.length = (ms.filter keep).length ∧
      ∀ f : Match → Text, (∀ m, keep m = false → f m = m.text) →
        interleave (g :: gaps) (ms.map f) = interleave (g' :: gaps') ((ms.filter keep).map f) := by
  induction ms generalizing g gaps with
  | nil =>
    refine ⟨g, gaps, hlength, ?_⟩
    intro f _
    rfl
  | cons m ms ih =>
    cases gaps with
    | nil => simp at hlength
    | cons g₁ gaps =>
      obtain ⟨g', gaps', hlength', hrest⟩ := ih g₁ gaps (by simpa using hlength)
      cases hkeep : keep m with
      -- A match that stays one ends its gap.
      | true =>
        refine ⟨g, g' :: gaps', by simp [hkeep, hlength'], ?_⟩
        intro f hf
        simp [hkeep, interleave, hrest f hf]
      -- The text of one that does not joins the gaps on both sides of it.
      | false =>
        refine ⟨g ++ (m.text ++ g'), gaps', by simp [hkeep, hlength'], ?_⟩
        intro f hf
        simp only [List.map_cons, List.filter_cons, hkeep, interleave, hrest f hf, hf m hkeep]
        rw [if_neg Bool.false_ne_true, interleave_append, interleave_append]

/-- A text is made of the numbers that get names and of gaps, and the new text of the names and of
the same gaps. -/
theorem exists_gaps_named (g : LiteralGrammar) (ns : List Text) (t : Text) :
    ∃ gaps : List Text, gaps.length = (named g ns t).length + 1 ∧
      t = interleave gaps ((named g ns t).map Match.text) ∧
      substitute g ns t = interleave gaps ((named g ns t).map (fun m => name m.text)) := by
  obtain ⟨gaps, hlength, hreplace⟩ := g.exists_gaps_replaceOutside number t
  obtain ⟨v, gaps, rfl⟩ := List.exists_cons_of_length_eq_add_one hlength
  obtain ⟨v', gaps', hlength', hfilter⟩ :=
    exists_gaps_filter (fun m => ns.elem m.text) v gaps _ (by simpa using hlength)
  refine ⟨v' :: gaps', by simp [named, hlength'], ?_, ?_⟩
  · -- The same gaps serve the old text, which is what a replacement by the matches themselves
    -- makes.
    have hsame : g.replaceOutside number Match.text t = t :=
      replace_eq_self isSolid_number fun _ m _ => ite_self m.text
    rw [named, ← hfilter Match.text (fun _ _ => rfl), ← hreplace, hsame]
  · have hkept : ∀ m : Match, ns.elem m.text = false →
        (if ns.elem m.text then name m.text else m.text) = m.text := by
      intro m hm
      rw [if_neg (by simpa using hm)]
    have hnamed : ∀ m ∈ named g ns t,
        (if ns.elem m.text then name m.text else m.text) = name m.text := by
      intro m hm
      rw [if_pos (List.mem_filter.mp hm).2]
    rw [substitute, hreplace, hfilter _ hkept]
    exact congrArg _ (List.map_congr_left hnamed)

/-- A number that gets a name is a whole one: no letter, digit, underscore or point stands on
either side of it. -/
theorem isWhole_of_mem_named {g : LiteralGrammar} {ns : List Text} {t : Text} {m : Match}
    (h : m ∈ named g ns t) : m.start.follows isPart = false ∧ m.stop.precedes isPart = false := by
  have hhit := List.mem_of_mem_filter (List.mem_of_mem_filter h)
  obtain ⟨v, hv⟩ := exists_matchesBehind_of_mem_hits isSolid_number hhit
  obtain ⟨-, -, -, hfollows, hprecedes⟩ := spec_of_matchAt? hv.2
  exact ⟨hfollows, hprecedes⟩

/-! ### Exponents -/

/-- Whether the text in front of a place, nearest character first, ends with what a float has in
front of the digits of a signed exponent: a digit, or a digit and a point, then the letter and the
sign. -/
def endsInExponentSign : Text → Bool
  | sign :: letter :: d :: r =>
    (sign == '+' || sign == '-') && (letter == 'e' || letter == 'E') &&
      (isDecimal d || d == '.' && r.head?.any isDecimal)
  | _ => false

/-- The text has, outside of its literals, a float with a signed exponent of the digits `n`. -/
def HasExponent (g : LiteralGrammar) (t n : Text) : Prop :=
  ∃ v r, t = v ++ (n ++ r) ∧ endsInExponentSign v.reverse = true ∧ r.head?.any isPart = false ∧
    LiteralGrammar.covers (g.literals t) v.length = false

/-- None of the digits that a name takes the place of are an exponent. -/
def SparesExponents (g : LiteralGrammar) (ns : List Text) (t : Text) : Prop :=
  ∀ m ∈ named g ns t, endsInExponentSign m.start.before = false

/-- Behind a sign a number may begin. -/
theorem isPart_of_endsInExponentSign {v : Text} (h : endsInExponentSign v.reverse = true) :
    v.getLast?.any isPart = false := by
  rw [← List.head?_reverse]
  match v.reverse, h with
  | sign :: letter :: d :: r, h =>
    rw [endsInExponentSign, Bool.and_eq_true, Bool.and_eq_true, Bool.or_eq_true, beq_iff_eq,
      beq_iff_eq] at h
    rw [List.head?_cons, Option.any_some]
    rcases h.1.1 with rfl | rfl <;> decide

/-- The digits of a signed exponent are matched as a number. -/
theorem exists_named_of_hasExponent {g : LiteralGrammar} {ns : List Text} {t n : Text}
    (hmem : n ∈ ns) (hn : IsNumber n) (h : HasExponent g t n) :
    ∃ m ∈ named g ns t, endsInExponentSign m.start.before = true := by
  obtain ⟨v, r, ht, hsign, hr, hcovers⟩ := h
  obtain ⟨c, hv, hafter⟩ := Cursor.exists_reads (c := Cursor.start t) ht
  obtain ⟨c', hreads, hafter'⟩ := Cursor.exists_reads hafter
  -- The sign hides the letter of the exponent, which would have ruled the digits out.
  have hfollows : c.follows isPart = false := by
    rw [hv.follows_start, isPart_of_endsInExponentSign hsign]
  have hprecedes : c'.precedes isPart = false := by
    rw [Cursor.precedes, hafter', hr]
  obtain ⟨m, hm⟩ := Option.ne_none_iff_exists'.mp (matchAt?_ne_none hn hreads hfollows hprecedes)
  obtain ⟨rfl, -, hreads', -⟩ := spec_of_matchAt? hm
  have hnumber := number?_of_matchAt? hm
  have htext : m.text = n := by
    rw [hfollows, hafter, number?_eq_some_iff, takeWhile_append_of_number hn,
      takeWhile_eq_nil_iff.mpr hr, List.append_nil] at hnumber
    exact hnumber.2.2.symm
  have hpos : m.start.pos = v.length := by
    rw [hv.pos_eq]
    exact Nat.zero_add v.length
  refine ⟨m, List.mem_filter.mpr ⟨List.mem_filter.mpr ⟨?_, ?_⟩, ?_⟩, ?_⟩
  · exact mem_hits_number ⟨hv, hm⟩
  · rw [hpos, hcovers]
    rfl
  · rw [htext]
    exact List.elem_eq_true_of_mem hmem
  · rw [hv.before_eq]
    simpa [Cursor.start] using hsign

/-- Exponents are left alone exactly if no exponent with a sign, outside of strings and comments,
has digits that get a name. -/
theorem sparesExponents_iff {g : LiteralGrammar} {ns : List Text} {t : Text}
    (hns : ∀ n ∈ ns, IsNumber n) :
    SparesExponents g ns t ↔ ∀ n ∈ ns, ¬HasExponent g t n := by
  constructor
  · intro hspares n hmem hexponent
    obtain ⟨m, hm, hsign⟩ := exists_named_of_hasExponent hmem (hns n hmem) hexponent
    rw [hspares m hm] at hsign
    cases hsign
  · -- The cursor in front of a number tells the exponent that it is the digits of.
    intro hnone m hm
    rw [Bool.eq_false_iff]
    intro hsign
    obtain ⟨houtside, hmem⟩ := List.mem_filter.mp hm
    obtain ⟨hhit, hcovers⟩ := List.mem_filter.mp houtside
    obtain ⟨v, hv⟩ := exists_matchesBehind_of_mem_hits isSolid_number hhit
    obtain ⟨-, -, hreads, -, hprecedes⟩ := spec_of_matchAt? hv.2
    have hbefore : m.start.before = v.reverse := by simpa [Cursor.start] using hv.1.before_eq
    have hpos : m.start.pos = v.length := by simpa [Cursor.start] using hv.1.pos_eq
    refine hnone m.text (List.elem_iff.mp hmem) ⟨v, m.stop.after, ?_, ?_, hprecedes, ?_⟩
    · rw [← hreads.after_eq]
      exact hv.1.after_eq
    · rw [← hbefore, hsign]
    · rw [← hpos]
      simpa using hcovers

/-- Names take the place of whole numbers: the text is made of them and of gaps, the new text of the
names and of the same gaps, and no number is part of a word or of a decimal. -/
structure NamesWholeNumbers (g : LiteralGrammar) (ns : List Text) (t : Text) : Prop where
  gaps : ∃ gaps : List Text, gaps.length = (named g ns t).length + 1 ∧
    t = interleave gaps ((named g ns t).map Match.text) ∧
    substitute g ns t = interleave gaps ((named g ns t).map (fun m => name m.text))
  whole : ∀ m ∈ named g ns t, m.start.follows isPart = false ∧ m.stop.precedes isPart = false

/-- In every text names take the place of whole numbers. -/
theorem namesWholeNumbers (g : LiteralGrammar) (ns : List Text) (t : Text) :
    NamesWholeNumbers g ns t :=
  ⟨exists_gaps_named g ns t, fun _ hm => isWhole_of_mem_named hm⟩

end Constant

open Instruction Notebook in
/-- The numbers that are extracted from a text, and those that are hoisted from the cells of a
notebook, are whole: none is part of a word or of a decimal. Exponents are left alone exactly if no
exponent with a sign has the digits of an extracted number. -/
theorem extraction_spares_exponents_iff (family : Family) (t : Text) (cells : List Cell) :
    (NamesWholeNumbers (literals family) (extractedNumbers family t) t ∧
      (SparesExponents (literals family) (extractedNumbers family t) t ↔
        ∀ n ∈ extractedNumbers family t, ¬HasExponent (literals family) t n)) ∧
    ((∀ c ∈ cells.filter Cell.isCode, NamesWholeNumbers .python (hoistedNumbers cells) c.source) ∧
      ((∀ c ∈ cells.filter Cell.isCode, SparesExponents .python (hoistedNumbers cells) c.source) ↔
        ∀ c ∈ cells.filter Cell.isCode, ∀ n ∈ hoistedNumbers cells,
          ¬HasExponent .python c.source n)) := by
  have hextracted : ∀ n ∈ extractedNumbers family t, IsNumber n := fun n hn =>
    spec_of_mem_numbersIn (mem_of_mem_repeated hn)
  have hhoisted : ∀ n ∈ hoistedNumbers cells, IsNumber n := fun n hn =>
    isNumber_of_mem_hoistedNumbers hn
  refine ⟨⟨namesWholeNumbers _ _ t, sparesExponents_iff hextracted⟩,
    fun c _ => namesWholeNumbers _ _ c.source, ?_⟩
  constructor
  · intro hspares c hc
    exact (sparesExponents_iff hhoisted).mp (hspares c hc)
  · intro hnone c hc
    exact (sparesExponents_iff hhoisted).mpr (hnone c hc)

/-- An exponent behind a sign is named like a number, which leaves the text broken. -/
theorem extraction_names_exponents :
    ¬SparesExponents (Instruction.literals .python)
        (Instruction.extractedNumbers .python "a = 1e-300\nb = 2e-300\nc = 3.e-300")
        "a = 1e-300\nb = 2e-300\nc = 3.e-300" ∧
      Instruction.extractConstants .python "a = 1e-300\nb = 2e-300\nc = 3.e-300" =
        ("CONSTANT_300 = 300\n\na = 1e-CONSTANT_300\nb = 2e-CONSTANT_300\n" ++
          "c = 3.e-CONSTANT_300").toList := by
  unfold SparesExponents
  decide +kernel

end CodeTidy
