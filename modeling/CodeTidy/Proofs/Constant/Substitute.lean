import CodeTidy.Proofs.Constant.Definitions
import CodeTidy.Proofs.Pattern.Spells
import CodeTidy.Proofs.Pattern.Steps

/-!
# `CodeTidy.Proofs.Constant.Substitute`: no definition comes of a substitution

Where the names of constants take the places of their numbers, no line becomes
the definition of one of them, unless the text held the name before. The name in
such a line would be written for a number, and the number behind the equals sign
would be kept. But it is kept only in a string or a comment, and neither begins
between the two. The theorems:

* `exists_reads_line`, `exists_reads_word`, `exists_reads_plain`: what stands in the
  old text where the new one has some line, word or space.
* `cases_of_writes_name`, `exists_of_writes_number`: where the new text has a name or a
  number.
* `definition_not_mem_substitute`: the substitution.
-/

set_option autoImplicit false

namespace CodeTidy.Constant

open Pattern Text

/-! ### Numbers -/

/-- The characters of words and decimals, next to which no number stands. -/
def isPart : CharSet := CharSet.or isWord (CharSet.of ".")

/-- The characters of names are characters of words. -/
theorem isPart_of_isNameChar {a : Char} (h : isNameChar a = true) : isPart a = true := by
  rw [isPart, CharSet.or, isWord_of_isNameChar h, Bool.true_or]

/-- Digits are characters of names. -/
theorem isNameChar_of_isDecimal {a : Char} (h : isDecimal a = true) : isNameChar a = true := by
  rw [isNameChar, h, Bool.or_true]

/-- A number is spelled with characters of names. -/
theorem IsNumber.all_isNameChar {n : Text} (h : IsNumber n) : n.all isNameChar = true :=
  List.all_eq_true.mpr fun a ha =>
    isNameChar_of_isDecimal (List.all_eq_true.mp h.all_isDecimal a ha)

/-- What is known of a match of a number. -/
theorem spec_of_matchAt? {c : Cursor} {m : Match} (h : number.matchAt? c = some m) :
    m.start = c ∧ IsNumber m.text ∧ c.Reads m.text m.stop ∧ c.follows isPart = false ∧
      m.stop.precedes isPart = false := by
  obtain ⟨hstart, htakes⟩ := takes_of_matchAt? h
  obtain ⟨n, hn, hreads, hfollows, hprecedes⟩ := takes_number htakes
  have htext : m.text = n := Match.text_of_reads (hstart ▸ hreads)
  rw [htext]
  exact ⟨hstart, hn, hreads, hfollows, hprecedes⟩

/-- A number with nothing around it that it might be part of is matched. -/
theorem matchAt?_ne_none {c c' : Cursor} {n : Text} (hn : IsNumber n) (hreads : c.Reads n c')
    (hfollows : c.follows isPart = false) (hprecedes : c'.precedes isPart = false) :
    number.matchAt? c ≠ none := by
  intro hnone
  refine matchAt?_eq_none_iff.mp hnone c' [] ⟨c, [], ⟨?_, rfl, rfl⟩, c', [],
    ⟨n, hn.all_isDecimal, hn.length, hreads, rfl⟩, rfl, rfl, ?_⟩
  · show (!c.follows isPart) = true
    rw [hfollows]
    rfl
  · obtain ⟨before, after, pos⟩ := c'
    cases after with
    | nil => rfl
    | cons a r =>
      have ha : ¬isPart a = true := by rw [show isPart a = false from hprecedes]; decide
      rw [run?, Cursor.next?]
      exact if_neg ha

/-- A name does not begin with a digit. -/
theorem head_name (n : Text) :
    ∃ a w, name n = a :: w ∧ isNameChar a = true ∧ isDecimal a = false := by
  have hknown : ∀ p ∈ knownNames, p.2.head?.any (fun a => isNameChar a && !isDecimal a) = true := by
    decide
  have hname : (name n).head?.any (fun a => isNameChar a && !isDecimal a) = true := by
    rcases name_cases n with hn | hn
    · exact hknown _ hn
    · rw [hn]
      rfl
  cases hw : name n with
  | nil => exact absurd hw (name_ne_nil n)
  | cons a w =>
    rw [hw, List.head?_cons, Option.any_some, Bool.and_eq_true, Bool.not_eq_true'] at hname
    exact ⟨a, w, rfl, hname.1, hname.2⟩

/-- A number is not the name of any. -/
theorem name_ne {n : Text} (hn : IsNumber n) (n' : Text) : name n' ≠ n := by
  obtain ⟨a, w, hname, -, hdecimal⟩ := head_name n'
  intro heq
  have hdigits := hn.all_isDecimal
  rw [← heq, hname, List.all_cons, hdecimal] at hdigits
  cases hdigits

/-! ### The old text behind the new one -/

section

variable {f : Match → Text} {c : Cursor} {n r : Text}

/-- What is written in the place of a number consists of characters of names. -/
theorem all_isNameChar_of_hit (hf : ∀ m, f m = m.text ∨ f m = name m.text) {m : Match}
    (h : number.matchAt? c = some m) : (f m).all isNameChar = true ∧ f m ≠ [] := by
  obtain ⟨-, hn, -⟩ := spec_of_matchAt? h
  rcases hf m with heq | heq <;> rw [heq]
  · exact ⟨hn.all_isNameChar, hn.ne_nil⟩
  · exact ⟨List.all_eq_true.mpr fun _ => isNameChar_of_mem_name hn.all_isDecimal, name_ne_nil _⟩

/-- Where the old text goes on with nothing that a name or number is part of, the new one does not
either, and the other way round. -/
theorem precedes_of_writes (hf : ∀ m, f m = m.text ∨ f m = name m.text) {out : Text}
    (h : Writes number f c out) : c.precedes isPart = out.head?.any isPart := by
  cases h with
  | stop hend =>
    rw [Cursor.precedes, hend]
  | pass hread => exact hread.precedes isPart
  | @hit c m out rest hmatch _ hout =>
    obtain ⟨-, hn, hreads, -⟩ := spec_of_matchAt? hmatch
    obtain ⟨hall, hne⟩ := all_isNameChar_of_hit hf hmatch
    have hfirst : ∀ {u : Text}, u.all isNameChar = true → u ≠ [] →
        ∃ a w, u = a :: w ∧ isPart a = true := by
      intro u hu hune
      obtain ⟨a, w, rfl⟩ := List.exists_cons_of_ne_nil hune
      rw [List.all_cons, Bool.and_eq_true] at hu
      exact ⟨a, w, rfl, isPart_of_isNameChar hu.1⟩
    obtain ⟨a, w, htext, ha⟩ := hfirst hn.all_isNameChar hn.ne_nil
    obtain ⟨b, w', hnew, hb⟩ := hfirst hall hne
    rw [htext] at hreads
    rw [hreads.precedes, ha, hout, hnew, List.cons_append, List.head?_cons, Option.any_some, hb]

/-- Behind a character of a word no number starts, so the rest of the word is copied. -/
theorem exists_reads_word {w : Text} (h : Writes number f c (w ++ r))
    (hc : c.follows isPart = true) (hw : w.all isPart = true) :
    ∃ c', c.Reads w c' ∧ Writes number f c' r := by
  induction w generalizing c with
  | nil => exact ⟨c, .refl c, h⟩
  | cons a w ih =>
    rw [List.all_cons, Bool.and_eq_true] at hw
    cases h with
    | pass hread _ hrest =>
      have hfollows := Cursor.Reads.follows (u := []) hread isPart
      rw [hw.1] at hfollows
      obtain ⟨c', hreads, hwrites⟩ := ih hrest hfollows hw.2
      exact ⟨c', hread.cons hreads, hwrites⟩
    | hit hmatch =>
      obtain ⟨-, -, -, hnot, -⟩ := spec_of_matchAt? hmatch
      rw [hc] at hnot
      cases hnot

/-- What holds no character of names is copied. -/
theorem exists_reads_plain (hf : ∀ m, f m = m.text ∨ f m = name m.text) {w : Text}
    (h : Writes number f c (w ++ r)) (hw : w.any isNameChar = false) :
    ∃ c', c.Reads w c' ∧ Writes number f c' r := by
  induction w generalizing c with
  | nil => exact ⟨c, .refl c, h⟩
  | cons a w ih =>
    rw [List.any_cons, Bool.or_eq_false_iff] at hw
    cases h with
    | pass hread _ hrest =>
      obtain ⟨c', hreads, hwrites⟩ := ih hrest hw.2
      exact ⟨c', hread.cons hreads, hwrites⟩
    | @hit c m out rest hmatch _ hout =>
      obtain ⟨hall, hne⟩ := all_isNameChar_of_hit hf hmatch
      obtain ⟨b, w', hnew⟩ := List.exists_cons_of_ne_nil hne
      rw [hnew, List.cons_append, List.cons_append, List.cons.injEq] at hout
      rw [hnew, List.all_cons, ← hout.1, hw.1] at hall
      cases hall

/-- Where a line starts in the new text, a place in the old text is written from. -/
theorem exists_reads_line (hf : ∀ m, f m = m.text ∨ f m = name m.text) {v out : Text}
    (h : Writes number f c out) (hout : out = v ++ r) (hv : endsFresh true v = true) :
    ∃ u c', c.Reads u c' ∧ Writes number f c' r := by
  induction h generalizing v with
  | @stop c hend =>
    obtain ⟨rfl, rfl⟩ := List.nil_eq_append_iff.mp hout
    exact ⟨[], c, .refl c, .stop hend⟩
  | @pass c c' a out hread hnone hrest ih =>
    cases v with
    | nil =>
      rw [List.nil_append] at hout
      exact ⟨[], c, .refl c, hout ▸ .pass hread hnone hrest⟩
    | cons b v =>
      rw [List.cons_append, List.cons.injEq] at hout
      obtain ⟨u, c'', hreads, hwrites⟩ := ih hout.2 (endsFresh_true hv)
      exact ⟨a :: u, c'', hread.cons hreads, hwrites⟩
  | @hit c m out rest hmatch hrest hnew ih =>
    obtain ⟨-, -, hreads, -⟩ := spec_of_matchAt? hmatch
    by_cases hne : v = []
    · rw [hne, List.nil_append] at hout
      exact ⟨[], c, .refl c, hout ▸ .hit hmatch hrest hnew⟩
    · -- The line feed that `v` ends with is not in the name or number.
      have hfeed : '\n' ∉ f m := fun hmem =>
        absurd (List.all_eq_true.mp (all_isNameChar_of_hit hf hmatch).1 _ hmem) (by decide)
      rw [hnew] at hout
      rcases List.append_eq_append_iff.mp hout with ⟨v', rfl, hrest'⟩ | ⟨v', hv', -⟩
      · rw [endsFresh_append] at hv
        obtain ⟨u, c', hreads', hwrites⟩ := ih hrest' (endsFresh_true hv)
        exact ⟨m.text ++ u, c', hreads.trans hreads', hwrites⟩
      · exact absurd (hv' ▸ List.mem_append_left v' (mem_of_endsFresh hv hne)) hfeed

/-- Where the new text has the name of a number, the old one has the name or the number. -/
theorem cases_of_writes_name (hf : ∀ m, f m = m.text ∨ f m = name m.text)
    (h : Writes number f c (name n ++ r)) (hn : n.all isDecimal = true)
    (hr : r.head?.any isPart = false) :
    (∃ c', c.Reads (name n) c') ∨
      ∃ m, number.matchAt? c = some m ∧ m.text = n ∧ f m = name n ∧ Writes number f m.stop r := by
  have hname : ∀ {n : Text}, n.all isDecimal = true → (name n).all isPart = true := fun hn =>
    List.all_eq_true.mpr fun _ ha => isPart_of_isNameChar (isNameChar_of_mem_name hn ha)
  obtain ⟨a, w, hw, ha, hdecimal⟩ := head_name n
  generalize hout : name n ++ r = out at h
  cases h with
  | stop =>
    rw [hw] at hout
    cases hout
  | @pass c c' b out hread hnone hrest =>
    -- The first character is copied, so the rest is.
    rw [hw, List.cons_append, List.cons.injEq] at hout
    obtain ⟨rfl, rfl⟩ := hout
    have hfollows := Cursor.Reads.follows (u := []) hread isPart
    rw [isPart_of_isNameChar ha] at hfollows
    have hall := hname hn
    rw [hw, List.all_cons, Bool.and_eq_true] at hall
    obtain ⟨c'', hreads, -⟩ := exists_reads_word hrest hfollows hall.2
    exact .inl ⟨c'', hw ▸ hread.cons hreads⟩
  | @hit c m out rest hmatch hrest hnew =>
    obtain ⟨-, hm, -, -, hprecedes⟩ := spec_of_matchAt? hmatch
    rw [precedes_of_writes hf hrest] at hprecedes
    have hstop : ∀ {t : Text}, t.head?.any isPart = false →
        t.head?.all (fun a => !isPart a) = true := by
      intro t ht
      cases t with
      | nil => rfl
      | cons b t => rw [List.head?_cons, Option.all_some, show isPart b = false from ht]; rfl
    rcases hf m with heq | heq
    · -- A number is not written where a name begins.
      obtain ⟨d, w', htext⟩ := List.exists_cons_of_ne_nil hm.ne_nil
      have hdigits := hm.all_isDecimal
      rw [htext, List.all_cons, Bool.and_eq_true] at hdigits
      rw [heq, htext, ← hout, hw, List.cons_append, List.cons_append, List.cons.injEq] at hnew
      rw [hnew.1, hdigits.1] at hdecimal
      cases hdecimal
    · rw [heq, ← hout] at hnew
      obtain ⟨hsame, rfl⟩ := append_inj_of_all (hname hn) (hname hm.all_isDecimal) (hstop hr)
        (hstop hprecedes) hnew
      exact .inr ⟨m, hmatch, (name_injective hsame).symm, by rw [heq, hsame], hrest⟩

/-- Where the new text has a number on its own, the old one has it too, and it is kept. -/
theorem exists_of_writes_number (hf : ∀ m, f m = m.text ∨ f m = name m.text)
    (h : Writes number f c (n ++ r)) (hn : IsNumber n) (hr : r.head?.any isPart = false)
    (hc : c.follows isPart = false) :
    ∃ m, number.matchAt? c = some m ∧ m.text = n ∧ f m = n := by
  have hdigits : n.all isPart = true := List.all_eq_true.mpr fun _ ha =>
    isPart_of_isNameChar (List.all_eq_true.mp hn.all_isNameChar _ ha)
  obtain ⟨d, w, hw⟩ := List.exists_cons_of_ne_nil hn.ne_nil
  rw [hw, List.all_cons, Bool.and_eq_true] at hdigits
  generalize hout : n ++ r = out at h
  cases h with
  | stop =>
    rw [hw] at hout
    cases hout
  | @pass c c' b out hread hnone hrest =>
    -- If the first digit were copied, so would the rest be, and the number would be matched.
    rw [hw, List.cons_append, List.cons.injEq] at hout
    obtain ⟨rfl, rfl⟩ := hout
    have hfollows := Cursor.Reads.follows (u := []) hread isPart
    rw [hdigits.1] at hfollows
    obtain ⟨c'', hreads, hwrites⟩ := exists_reads_word hrest hfollows hdigits.2
    have hprecedes := precedes_of_writes hf hwrites
    rw [hr] at hprecedes
    exact absurd hnone (matchAt?_ne_none hn (hw ▸ hread.cons hreads) hc hprecedes)
  | @hit c m out rest hmatch hrest hnew =>
    obtain ⟨-, hm, -, -, hprecedes⟩ := spec_of_matchAt? hmatch
    rw [precedes_of_writes hf hrest] at hprecedes
    have hstop : ∀ {t : Text}, t.head?.any isPart = false →
        t.head?.all (fun a => !isDecimal a) = true := by
      intro t ht
      cases t with
      | nil => rfl
      | cons b t =>
        rw [List.head?_cons, Option.all_some]
        cases hb : isDecimal b with
        | false => rfl
        | true =>
          rw [List.head?_cons, Option.any_some,
            isPart_of_isNameChar (isNameChar_of_isDecimal hb)] at ht
          cases ht
    rcases hf m with heq | heq
    · rw [heq, ← hout] at hnew
      obtain ⟨hsame, -⟩ := append_inj_of_all hn.all_isDecimal hm.all_isDecimal (hstop hr)
        (hstop hprecedes) hnew
      exact ⟨m, hmatch, hsame.symm, by rw [heq, hsame]⟩
    · -- A name is not written where a number begins.
      obtain ⟨a, w', hname, -, hdecimal⟩ := head_name m.text
      have hall := hn.all_isDecimal
      rw [hw, List.all_cons, Bool.and_eq_true] at hall
      rw [heq, hname, ← hout, hw, List.cons_append, List.cons_append, List.cons.injEq] at hnew
      rw [← hnew.1, hall.1] at hdecimal
      cases hdecimal

end

/-! ### Strings and comments -/

/-- A string or comment begins with its mark. -/
theorem exists_mark_of_literal {t v : Text} {m : Match}
    (h : MatchesBehind LiteralGrammar.python.pattern t v m) :
    ∃ q w, m.text = q :: w ∧ q ∈ "\"'#".toList := by
  have hspells := h.spells
  simp only [LiteralGrammar.pattern, LiteralGrammar.blockString, LiteralGrammar.lineString,
    LiteralGrammar.lineComment, spells_oneOf, spells_oneOf_one, spells_text_then, spells_one_then]
    at hspells
  rcases hspells with ⟨w, hw, -⟩ | ⟨w, hw, -⟩ | ⟨a, ha, w, hw, -⟩ | ⟨a, ha, w, hw, -⟩ | ⟨w, hw, -⟩
  · exact ⟨_, _, hw.symm, by decide⟩
  · exact ⟨_, _, hw.symm, by decide⟩
  · rw [beq_iff_eq] at ha
    exact ⟨a, w, hw.symm, by rw [ha]; decide⟩
  · rw [beq_iff_eq] at ha
    exact ⟨a, w, hw.symm, by rw [ha]; decide⟩
  · exact ⟨_, _, hw.symm, by decide⟩

/-- What is read from between two places stands between them. -/
theorem mem_of_reads_between {t v v' w u : Text} {q : Char} {c c' d d' : Cursor}
    (hc : (Cursor.start t).Reads v c) (hw : c.Reads w c') (hd : (Cursor.start t).Reads v' d)
    (hq : d.Reads (q :: u) d') (hle : c.pos ≤ d.pos) (hlt : d.pos < c'.pos) : q ∈ w := by
  have hpos := hc.pos_eq
  have hpos' := hd.pos_eq
  have hstop := hw.pos_eq
  have hold : t[v'.length]? = some q := by
    have ht : t = v' ++ (q :: u ++ d'.after) := by
      rw [← hq.after_eq]
      exact hd.after_eq
    rw [ht]
    simp
  have hnew : t = v ++ (w ++ c'.after) := by
    rw [← hw.after_eq]
    exact hc.after_eq
  rw [hnew, List.getElem?_append_right (by omega), List.getElem?_append_left (by omega)] at hold
  exact List.mem_of_getElem? hold

/-! ### Substitution -/

/-- A number in the middle of a stretch without quotes and number signs lies in a string or comment
only if what the stretch begins with does. -/
theorem covers_of_covers {t v w : Text} {c c' : Cursor} {pos : Nat}
    (hc : (Cursor.start t).Reads v c) (hw : c.Reads w c')
    (hplain : ∀ q ∈ "\"'#".toList, q ∉ w) (hle : c.pos ≤ pos) (hlt : pos < c'.pos)
    (h : LiteralGrammar.covers (LiteralGrammar.python.literals t) pos = true) :
    LiteralGrammar.covers (LiteralGrammar.python.literals t) c.pos = true := by
  obtain ⟨m, hm, hcovers⟩ := List.any_eq_true.mp h
  rw [Bool.and_eq_true, decide_eq_true_eq, decide_eq_true_eq] at hcovers
  refine List.any_eq_true.mpr ⟨m, hm, ?_⟩
  rw [Bool.and_eq_true, decide_eq_true_eq, decide_eq_true_eq]
  refine ⟨?_, by omega⟩
  -- Otherwise the literal would begin in the stretch.
  by_contra hstart
  obtain ⟨v', hbehind⟩ := exists_matchesBehind_of_mem_hits (isSolid_spec rfl) hm
  obtain ⟨q, u, htext, hq⟩ := exists_mark_of_literal hbehind
  obtain ⟨u', hreads, htext', -⟩ := exists_reads_of_matchAt? hbehind.2
  rw [← htext', htext] at hreads
  exact hplain q hq (mem_of_reads_between hc hw hbehind.1 hreads (by omega) (by omega))

/-- A number that has a name and is kept lies in a string or comment. -/
theorem covers_of_kept {ns : List Text} {t : Text} {m : Match} (hmem : m.text ∈ ns)
    (hn : IsNumber m.text)
    (h : (if LiteralGrammar.covers (LiteralGrammar.python.literals t) m.start.pos then m.text
      else if ns.elem m.text then name m.text else m.text) = m.text) :
    LiteralGrammar.covers (LiteralGrammar.python.literals t) m.start.pos = true := by
  by_contra hnot
  rw [if_neg hnot, if_pos (List.elem_eq_true_of_mem hmem)] at h
  exact name_ne hn m.text h

/-- A number that gets its name lies in no string or comment. -/
theorem covers_of_named {ns : List Text} {t : Text} {m : Match} (hn : IsNumber m.text)
    (h : (if LiteralGrammar.covers (LiteralGrammar.python.literals t) m.start.pos then m.text
      else if ns.elem m.text then name m.text else m.text) = name m.text) :
    LiteralGrammar.covers (LiteralGrammar.python.literals t) m.start.pos = false := by
  rw [Bool.eq_false_iff]
  intro hcovers
  rw [if_pos hcovers] at h
  exact name_ne hn m.text h.symm

/-- A number on both sides of an equals sign holds no quote and no number sign. -/
theorem not_mem_equation {n : Text} (hn : IsNumber n) :
    ∀ q ∈ "\"'#".toList, q ∉ n ++ " = ".toList ++ n := by
  intro q hq
  have hdigits : q ∉ n := not_mem_of_excludes hn.all_isDecimal (by decide) hq
  have hsign : q ∉ " = ".toList := by
    have hsigns : " = ".toList.all (fun a => !"\"'#".toList.contains a) = true := by decide
    intro hin
    have hnot := List.all_eq_true.mp hsigns q hin
    rw [List.contains_iff_mem.mpr hq] at hnot
    cases hnot
  rw [List.mem_append, List.mem_append, not_or, not_or]
  exact ⟨⟨hdigits, hsign⟩, hdigits⟩

/-- No line becomes the definition of a constant by the substitution that puts the constant in the
place of its number, if the text does not hold its name. -/
theorem definition_not_mem_substitute {ns : List Text} {n t : Text} (hmem : n ∈ ns)
    (hn : IsNumber n) (hfresh : Text.holds t (name n) = false) :
    definition n ∉ lines (substitute .python ns t) := by
  intro hline
  obtain ⟨v, r, hout, hv, hr⟩ := exists_of_mem_lines hline
  generalize hf : (fun m : Match =>
    if LiteralGrammar.covers (LiteralGrammar.python.literals t) m.start.pos then m.text
    else if ns.elem m.text then name m.text else m.text) = f
  have hcases : ∀ m, f m = m.text ∨ f m = name m.text := by
    intro m
    rw [← hf]
    dsimp only
    split
    · exact .inl rfl
    · split
      · exact .inr rfl
      · exact .inl rfl
  have hwrites : Writes number f (Cursor.start t) (substitute .python ns t) := by
    rw [← hf]
    exact writes_replace isSolid_number _ t
  -- The line is written from some place on, where the text has the number and not the name.
  obtain ⟨u, c, hreads, hname⟩ := exists_reads_line hcases hwrites hout hv
  rw [definition, List.append_assoc, List.append_assoc] at hname
  rcases cases_of_writes_name hcases hname hn.all_isDecimal rfl with
    ⟨c', hheld⟩ | ⟨m, hmatch, htext, hnew, hrest⟩
  · have hinfix : name n <:+: t := by
      have ht : t = u ++ (name n ++ c'.after) := by
        rw [← hheld.after_eq]
        exact hreads.after_eq
      rw [ht]
      exact ⟨u, c'.after, by rw [List.append_assoc]⟩
    rw [Text.holds_iff.mpr hinfix] at hfresh
    cases hfresh
  · -- Behind the equals sign the text has the number again, and there it is kept.
    obtain ⟨c₁, hequals, hnumber⟩ := exists_reads_plain hcases hrest (by decide)
    have hfollows := Cursor.Reads.follows (u := " =".toList) hequals isPart
    have hstop : r.head?.any isPart = false := by
      cases r with
      | nil => rfl
      | cons a r =>
        rw [List.head?_cons, Option.all_some, beq_iff_eq] at hr
        rw [hr, List.head?_cons, Option.any_some]
        decide
    obtain ⟨m', hmatch', htext', hkept⟩ := exists_of_writes_number hcases hnumber hn hstop
      (hfollows.trans (by decide))
    obtain ⟨hstart, -, hfirst, -⟩ := spec_of_matchAt? hmatch
    obtain ⟨hstart', -, hsecond, -⟩ := spec_of_matchAt? hmatch'
    -- So the second number lies in a string or comment, and the first does not.
    rw [← hf] at hkept hnew
    have hcovered : LiteralGrammar.covers (LiteralGrammar.python.literals t) m'.start.pos = true :=
      covers_of_kept (htext' ▸ hmem) (htext' ▸ hn) (hkept.trans htext'.symm)
    have hfree : LiteralGrammar.covers (LiteralGrammar.python.literals t) m.start.pos = false :=
      covers_of_named (htext ▸ hn) (hnew.trans (congrArg name htext.symm))
    rw [htext] at hfirst
    rw [htext'] at hsecond
    have hbetween := (hfirst.trans hequals).trans hsecond
    have hsame := covers_of_covers hreads hbetween (not_mem_equation hn)
      (hfirst.trans hequals).pos_le ?_ (hstart' ▸ hcovered)
    · rw [hstart, hsame] at hfree
      cases hfree
    · have hpos := hsecond.pos_eq
      have hlength := hn.length
      omega

end CodeTidy.Constant
