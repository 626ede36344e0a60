import CodeTidy.Proofs.Constant.Numbers

/-!
# `CodeTidy.Proofs.Constant.Restore`: from names back to numbers

A number stands in a text as a whole word, and so does its name in the new text.
Where the old text does not hold the name as a word, each word of the new text
that is a name has been written for its number, so putting the number back
restores the text. The theorems:

* `matchAt?_word`: a word is matched as far as it goes.
* `Writes.unique`: a replacement writes one text only.
* `restore_rename`, `restore_substitute`: the text is restored.
-/

set_option autoImplicit false

namespace CodeTidy

open Pattern Text

namespace Pattern

/-- A word is taken up to what is no word character. -/
theorem takeWhile_isWord {u r : Text} (hu : u.all isWord = true) (hr : r.head?.any isWord = false) :
    (u ++ r).takeWhile isWord = u := by
  rw [List.takeWhile_append_of_pos (List.all_eq_true.mp hu)]
  cases r with
  | nil => rw [List.takeWhile_nil, List.append_nil]
  | cons a r =>
    have ha : isWord a = false := hr
    rw [List.takeWhile_cons, ha, if_neg Bool.false_ne_true, List.append_nil]

/-- A word is matched as far as it goes. -/
theorem matchAt?_word {c : Cursor} {w r : Text} (hafter : c.after = w ++ r)
    (hw : w.all isWord = true) (hr : r.head?.any isWord = false) :
    word.matchAt? c = if w = [] then none else some ⟨c, c.behind w, []⟩ := by
  obtain ⟨before, after, pos⟩ := c
  obtain rfl : after = w ++ r := hafter
  obtain ⟨u, r', heq, hu, hr', hend⟩ := runEnd_spec isWord before pos 0 (w ++ r)
  have hr'' : r'.head?.any isWord = false := by
    cases r' with
    | nil => rfl
    | cons a r' => rwa [List.head?_cons, Option.all_some, Bool.not_eq_true'] at hr'
  obtain rfl : w = u := by rw [← takeWhile_isWord hw hr, heq, takeWhile_isWord hu hr'']
  obtain rfl := List.append_cancel_left heq
  show runMost isWord 1 ⟨before, w ++ r, pos⟩
    (fun c' => some (⟨⟨before, w ++ r, pos⟩, c', []⟩ : Match)) = _
  rw [runMost, hend]
  show (if 0 + w.length < 1 then none else backOff _ (0 + w.length - 1) _) = _
  -- With no characters the run is too short. Otherwise it is long enough, and nothing is given
  -- back.
  cases w with
  | nil => rfl
  | cons a w =>
    rw [if_neg (by rw [List.length_cons]; omega), if_neg (List.cons_ne_nil a w)]
    cases hn : 0 + (a :: w).length - 1 <;> simp [backOff, Cursor.behind]

/-- What a word that is matched is made of. -/
theorem exists_of_matchAt?_word {c : Cursor} {m : Match} (h : word.matchAt? c = some m) :
    ∃ w r, c.after = w ++ r ∧ w.all isWord = true ∧ r.head?.any isWord = false ∧ w ≠ [] ∧
      m = ⟨c, c.behind w, []⟩ := by
  have hafter : c.after = c.after.takeWhile isWord ++ c.after.dropWhile isWord :=
    List.takeWhile_append_dropWhile.symm
  have hend := head?_dropWhile_any isWord c.after
  rw [matchAt?_word hafter List.all_takeWhile hend] at h
  split at h
  · cases h
  · next hne =>
    cases h
    exact ⟨_, _, hafter, List.all_takeWhile, hend, hne, rfl⟩

/-- A character that is not passed with a word is none of a word. -/
theorem isWord_eq_false_of_matchAt? {c : Cursor} {a : Char} {r : Text} (hafter : c.after = a :: r)
    (h : word.matchAt? c = none) : isWord a = false := by
  cases ha : isWord a with
  | false => rfl
  | true =>
    have hsplit : c.after = (a :: r.takeWhile isWord) ++ r.dropWhile isWord := by
      rw [hafter, List.cons_append, List.takeWhile_append_dropWhile]
    have hall : (a :: r.takeWhile isWord).all isWord = true := by
      rw [List.all_cons, ha, List.all_takeWhile]
      rfl
    rw [matchAt?_word hsplit hall (head?_dropWhile_any isWord r),
      if_neg (List.cons_ne_nil a _)] at h
    cases h

/-- The pattern for words matches nothing empty. -/
theorem isSolid_word : IsSolid word := isSolid_spec rfl

/-- A replacement writes one text only. -/
theorem Writes.unique {p : Pattern} (hp : IsSolid p) {f : Match → Text} {c : Cursor}
    {out out' : Text} (h : Writes p f c out) (h' : Writes p f c out') : out = out' := by
  have hnone {c : Cursor} {m : Match} (hend : c.after = []) : p.matchAt? c ≠ some m := fun hm => by
    obtain ⟨a, u, hreads, -⟩ := exists_cons_reads_of_matchAt? hp hm
    exact absurd (hreads.of_after hend).1 (List.cons_ne_nil a u)
  -- At each place the same thing happens in both: the end is not matched, and a match leaves no
  -- choice.
  induction h generalizing out' with
  | stop hend =>
    cases h' with
    | stop => rfl
    | pass hread => exact absurd (hread.of_after hend).1 (List.cons_ne_nil _ _)
    | hit hmatch => exact absurd hmatch (hnone hend)
  | pass hread hfree _ ih =>
    cases h' with
    | stop hend => exact absurd (hread.of_after hend).1 (List.cons_ne_nil _ _)
    | pass hread' _ hrest' =>
      obtain ⟨rfl, rfl⟩ := hread.one_unique hread'
      rw [ih hrest']
    | hit hmatch =>
      rw [hfree] at hmatch
      cases hmatch
  | hit hmatch _ hout ih =>
    cases h' with
    | stop hend => exact absurd hmatch (hnone hend)
    | pass _ hfree =>
      rw [hfree] at hmatch
      cases hmatch
    | hit hmatch' hrest' hout' =>
      rw [hmatch] at hmatch'
      cases hmatch'
      rw [hout, hout', ih hrest']

end Pattern

namespace Constant

/-- The number for a word that names one of the numbers; any other word stays as it is. -/
def restoreWord (ns : List Text) (w : Text) : Text := (ns.find? (fun n => name n == w)).getD w

/-- The text with numbers in the places of their names, where these are whole words. -/
def restore (ns : List Text) (t : Text) : Text := word.replace (fun m => restoreWord ns m.text) t

/-- The name of one of the numbers gives that number: no other has the same name. -/
theorem restoreWord_name {ns : List Text} {n : Text} (h : n ∈ ns) :
    restoreWord ns (name n) = n := by
  obtain ⟨n', hfind⟩ : ∃ n', ns.find? (fun n' => name n' == name n) = some n' :=
    Option.isSome_iff_exists.mp (List.find?_isSome.mpr ⟨n, h, beq_self_eq_true _⟩)
  have hsame := List.find?_some hfind
  rw [beq_iff_eq] at hsame
  rw [restoreWord, hfind, Option.getD_some, name_injective hsame]

/-- A word that is none of the names stays. -/
theorem restoreWord_eq_self {ns : List Text} {w : Text} (h : ∀ n ∈ ns, name n ≠ w) :
    restoreWord ns w = w := by
  have hnone : ns.find? (fun n => name n == w) = none := by
    rw [List.find?_eq_none]
    intro n hn
    rw [beq_false_of_ne (h n hn)]
    exact Bool.false_ne_true
  rw [restoreWord, hnone, Option.getD_none]

/-- Word characters are characters of words and decimals. -/
theorem all_isPart_of_all_isWord {u : Text} (h : u.all isWord = true) : u.all isPart = true := by
  rw [List.all_eq_true] at h ⊢
  intro a ha
  rw [isPart, CharSet.or, h a ha, Bool.true_or]

/-- What does not go on a word or decimal does not go on a word. -/
theorem any_isWord_of_isPart {o : Option Char} (h : o.any isPart = false) :
    o.any isWord = false := by
  cases o with
  | none => rfl
  | some a =>
    rw [Option.any_some, isPart, CharSet.or, Bool.or_eq_false_iff] at h
    exact h.1

section

variable {f : Match → Text} {c : Cursor}

/-- Behind a part of a word no number starts, so what comes next is copied. -/
theorem exists_writes_word {w out : Text} {c' : Cursor} (h : Writes number f c out)
    (hc : c.follows isPart = true) (hreads : c.Reads w c') (hw : w.all isPart = true) :
    ∃ out', out = w ++ out' ∧ Writes number f c' out' := by
  induction w generalizing c out with
  | nil => exact ⟨out, rfl, hreads.unique (.refl c) ▸ h⟩
  | cons a w ih =>
    rw [List.all_cons, Bool.and_eq_true] at hw
    obtain ⟨c₁, hread, hrest⟩ := Cursor.Reads.split (u := [a]) hreads
    cases h with
    | stop hend => exact absurd (hreads.of_after hend).1 (List.cons_ne_nil a w)
    | @pass _ c₂ b out hread' _ hwrites =>
      obtain ⟨rfl, rfl⟩ := hread'.one_unique hread
      have hfollows := Cursor.Reads.follows (u := []) hread isPart
      rw [hw.1] at hfollows
      obtain ⟨out', rfl, hwrites'⟩ := ih hwrites hfollows hrest hw.2
      exact ⟨out', rfl, hwrites'⟩
    -- A number does not begin behind a part of a word.
    | hit hmatch =>
      obtain ⟨-, -, -, hnot, -⟩ := spec_of_matchAt? hmatch
      rw [hc] at hnot
      cases hnot

/-- Where a word of the old text begins, one of the new text does. It stays the same, or it is the
name of the number that the old one is. -/
theorem exists_word (ns : List Text)
    (hf : ∀ m, f m = m.text ∨ f m = name m.text ∧ m.text ∈ ns) {w r out : Text}
    (h : Writes number f c out) (hafter : c.after = w ++ r) (hw : w.all isWord = true)
    (hne : w ≠ []) (hr : r.head?.any isWord = false) (hfresh : ∀ n ∈ ns, name n ≠ w) :
    ∃ v out', out = v ++ out' ∧ v.all isWord = true ∧ v ≠ [] ∧ out'.head?.any isWord = false ∧
      restoreWord ns v = w ∧ Writes number f (c.behind w) out' := by
  have hf' : ∀ m, f m = m.text ∨ f m = name m.text := fun m => (hf m).imp_right And.left
  have hreads : c.Reads w (c.behind w) := Cursor.reads_behind ⟨r, hafter.symm⟩
  cases h with
  | stop hend => exact absurd (hreads.of_after hend).1 hne
  | @pass _ c₁ b out hread _ hrest =>
    -- The first character is copied, so the rest of the word is.
    obtain ⟨a, w, rfl⟩ := List.exists_cons_of_ne_nil hne
    obtain ⟨c₂, hread', hreads'⟩ := Cursor.Reads.split (u := [a]) hreads
    obtain ⟨rfl, rfl⟩ := hread.one_unique hread'
    have hall := all_isPart_of_all_isWord hw
    rw [List.all_cons, Bool.and_eq_true] at hall
    have hfollows := Cursor.Reads.follows (u := []) hread isPart
    rw [hall.1] at hfollows
    obtain ⟨out', rfl, hwrites⟩ := exists_writes_word hrest hfollows hreads' hall.2
    refine ⟨b :: w, out', rfl, hw, hne, ?_, restoreWord_eq_self hfresh, hwrites⟩
    have hbehind : (c.behind (b :: w)).follows isPart = true := by
      rw [hreads.follows_getLast? hne]
      exact getLast?_any_isPart (all_isPart_of_all_isWord hw) hne
    have hr' : (c.behind (b :: w)).after.head?.any isWord = false := by
      rw [Cursor.after_behind hafter]
      exact hr
    cases hwrites with
    | stop => rfl
    | pass hread =>
      rw [hread.after_eq] at hr'
      exact hr'
    | hit hmatch =>
      obtain ⟨-, -, -, hnot, -⟩ := spec_of_matchAt? hmatch
      rw [hbehind] at hnot
      cases hnot
  | @hit _ m out rest hmatch hrest hout =>
    -- The word is a number as a whole.
    obtain ⟨-, hn, hreads', -, hprecedes⟩ := spec_of_matchAt? hmatch
    have hnumber : m.text.all isWord = true := List.all_eq_true.mpr fun a ha =>
      isWord_of_isNameChar (List.all_eq_true.mp hn.all_isNameChar a ha)
    have hsame : w = m.text := by
      rw [← takeWhile_isWord hw hr, ← hafter, hreads'.after_eq,
        takeWhile_isWord hnumber (any_isWord_of_isPart hprecedes)]
    obtain ⟨hall, hne'⟩ := all_isNameChar_of_hit hf' hmatch
    rw [precedes_of_writes hf' hrest] at hprecedes
    refine ⟨f m, rest, hout, List.all_eq_true.mpr fun a ha =>
      isWord_of_isNameChar (List.all_eq_true.mp hall a ha), hne', any_isWord_of_isPart hprecedes,
      ?_, ?_⟩
    · rw [hsame]
      rcases hf m with heq | ⟨heq, hmem⟩
      · rw [heq]
        exact restoreWord_eq_self fun n _ => name_ne hn n
      · rw [heq]
        exact restoreWord_name hmem
    · rw [hsame, ← hreads'.eq_behind]
      exact hrest

/-- Word by word the new text is written back. -/
theorem writes_restore (ns : List Text)
    (hf : ∀ m, f m = m.text ∨ f m = name m.text ∧ m.text ∈ ns) {segments : List Segment}
    (hcuts : Cuts word c segments) (hfresh : ∀ n ∈ ns, ∀ m ∈ hitsOf segments, name n ≠ m.text)
    {out : Text} (h : Writes number f c out) {d : Cursor} (hd : d.after = out) :
    Writes word (fun m => restoreWord ns m.text) d c.after := by
  induction hcuts generalizing d out with
  | @stop c hend =>
    obtain rfl := h.unique isSolid_number (.stop hend)
    rw [hend]
    exact .stop hd
  | @pass c c' a g rest hread hnone _ ih =>
    have hafter : c.after = a :: c'.after := hread.after_eq
    have ha := isWord_eq_false_of_matchAt? hafter hnone
    rw [hafter]
    cases h with
    | stop hend => exact absurd (hread.of_after hend).1 (List.cons_ne_nil a [])
    | @pass _ c₁ b out hread' _ hwrites =>
      obtain ⟨rfl, rfl⟩ := hread'.one_unique hread
      have hreads : d.Reads [b] (d.behind [b]) := Cursor.reads_behind ⟨out, hd.symm⟩
      have hnone : word.matchAt? d = none := matchAt?_word (w := []) hd rfl ha
      exact .pass hreads hnone (ih hfresh hwrites (Cursor.after_behind hd))
    -- A number begins with a part of a word, and here is none.
    | hit hmatch =>
      obtain ⟨-, hn, hreads, -⟩ := spec_of_matchAt? hmatch
      obtain ⟨b, w, htext⟩ := List.exists_cons_of_ne_nil hn.ne_nil
      have hall := hn.all_isNameChar
      rw [htext, List.all_cons, Bool.and_eq_true] at hall
      rw [htext] at hreads
      obtain ⟨rfl, -⟩ := List.cons.inj (hreads.after_eq.symm.trans hafter)
      rw [isWord_of_isNameChar hall.1] at ha
      cases ha
  | @hit c m rest hmatch _ ih =>
    obtain ⟨w, r, hafter, hw, hr, hne, rfl⟩ := exists_of_matchAt?_word hmatch
    have hreads : c.Reads w (c.behind w) := Cursor.reads_behind ⟨r, hafter.symm⟩
    have hfresh' : ∀ n ∈ ns, name n ≠ w := fun n hn heq =>
      hfresh n hn _ List.mem_cons_self (heq.trans (Match.text_of_reads hreads).symm)
    -- The word of the new text is the old one, or the name of it, which is read as one word as
    -- well.
    obtain ⟨v, out', rfl, hv, hvne, hout', hback, hwrites⟩ :=
      exists_word ns hf h hafter hw hne hr hfresh'
    have hreads' : d.Reads v (d.behind v) := Cursor.reads_behind ⟨out', hd.symm⟩
    have hmatch' : word.matchAt? d = some ⟨d, d.behind v, []⟩ := by
      rw [matchAt?_word hd hv hout', if_neg hvne]
    have hlater : ∀ n ∈ ns, ∀ m ∈ hitsOf rest, name n ≠ m.text := fun n hn m hm =>
      hfresh n hn m (List.mem_cons_of_mem _ hm)
    refine .hit hmatch' (ih hlater hwrites ?_) ?_
    · exact Cursor.after_behind hd
    · rw [Match.text_of_reads (m := ⟨d, d.behind v, []⟩) hreads', hback]
      exact hreads.after_eq

/-- Numbers outside strings and comments that get their names are put back word by word. -/
theorem restore_rename {ns : List Text} {t : Text}
    (hf : ∀ m, f m = m.text ∨ f m = name m.text ∧ m.text ∈ ns)
    (hfresh : ∀ n ∈ ns, name n ∉ (word.hits t).map Match.text) :
    restore ns (number.replace f t) = t := by
  have hwords : ∀ n ∈ ns, ∀ m ∈ hitsOf (word.segments t), name n ≠ m.text := by
    intro n hn m hm heq
    rw [hitsOf_segments] at hm
    exact hfresh n hn (heq ▸ List.mem_map_of_mem hm)
  exact (writes_replace isSolid_word _ _).unique isSolid_word
    (writes_restore ns hf (cuts_segments isSolid_word t) hwords
      (writes_replace isSolid_number f t) (d := Cursor.start (number.replace f t)) rfl)

end

/-- The text in which numbers have got their names is restored, if it did not hold one of the names
as a word. -/
theorem restore_substitute (g : LiteralGrammar) {ns : List Text} {t : Text}
    (hfresh : ∀ n ∈ ns, name n ∉ (word.hits t).map Match.text) :
    restore ns (substitute g ns t) = t := by
  refine restore_rename (fun m => ?_) hfresh
  split
  · exact .inl rfl
  · dsimp only
    split
    · next hmem => exact .inr ⟨rfl, List.elem_iff.mp hmem⟩
    · exact .inl rfl

end Constant

end CodeTidy
