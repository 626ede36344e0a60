import CodeTidy.Text.Blank
import Mathlib.Data.List.DropRight

/-!
# `CodeTidy.Proofs.Text.Lines`: the lines of a text, one by one

A text is one line, or a line and a text behind a line feed. The body of a loop and the
block in which a file is open are texts of which each line is empty or starts with white
space. The theorems:

* `exists_line`, `lines_induction`: the first line of a text, and induction on
  lines.
* `splitAtEach_append`, `lines_eq_singleton`, `lines_append`: what the lines are in either
  case, as with any other separator.
* `unlines_cons`, `lines_unlines`, `prefix_lines_unlines`: a line in front of other
  lines, and the lines of lines put together.
* `exists_suffix_iff`: what stands at the end of a line.
* `head?_drop_line`: what comes behind the rest of a line.
* `firstLine_eq`, `exists_of_mem_tail_lines`: the first line, and those that begin behind a line
  feed.
* `isIndented_append`, `isIndented_append_of_fresh`: indented texts one behind the other.
* `isIndented_line`, `isIndented_of_not_mem`, `isIndented_unlines`: single lines, and a text that is
  made of such lines.
-/

set_option autoImplicit false

namespace CodeTidy.Text

/-- A condition on all characters of a text is decided by going through them, not through all
characters there are. -/
instance (priority := 1100) {t : Text} {p : Char → Prop} [DecidablePred p] :
    Decidable (∀ c ∈ t, p c) :=
  List.decidableBAll p t

/-- A text holds another one if that is a stretch of it. -/
theorem holds_iff {t part : Text} : holds t part = true ↔ part <:+: t := by
  induction t with
  | nil => rw [holds, List.isEmpty_iff, List.infix_nil]
  | cons c t ih =>
    rw [holds, Bool.or_eq_true, ih, List.isPrefixOf_iff_prefix, List.infix_cons_iff]

/-- A character of a text that is cut in two stands in the one part or in the other. -/
theorem append_eq_append_cons {α : Type} {u v x w : List α} {a : α} (h : u ++ v = x ++ a :: w) :
    (∃ c, u = x ++ a :: c ∧ w = c ++ v) ∨ ∃ c, x = u ++ c ∧ v = c ++ a :: w := by
  rcases List.append_eq_append_iff.mp h with ⟨c, hx, hv⟩ | ⟨c, hu, hw⟩
  · exact .inr ⟨c, hx, hv⟩
  · cases c with
    | nil => exact .inr ⟨[], by rw [hu, List.append_nil, List.append_nil], hw.symm⟩
    | cons b c =>
      obtain ⟨rfl, hrest⟩ := List.cons.inj hw
      exact .inl ⟨c, hu, hrest⟩

/-- A text without a character is passed over by what stands in front of it. -/
theorem exists_of_append_eq {u v w z : Text} {d : Char} (hu : d ∉ u) (h : u ++ v = w ++ d :: z) :
    ∃ w', w = u ++ w' ∧ v = w' ++ d :: z := by
  rcases append_eq_append_cons h with ⟨c, rfl, -⟩ | hbehind
  · exact absurd (List.mem_append_right w List.mem_cons_self) hu
  · exact hbehind

/-- A text is one line, or begins with one. -/
theorem exists_line (t : Text) : '\n' ∉ t ∨ ∃ l r, t = l ++ '\n' :: r ∧ '\n' ∉ l := by
  by_cases h : '\n' ∈ t
  · obtain ⟨l, r, rfl, hl⟩ := List.eq_append_cons_of_mem h
    exact .inr ⟨l, r, rfl, hl⟩
  · exact .inl h

/-- Induction on the lines of a text. -/
theorem lines_induction {P : Text → Prop} (one : ∀ l, '\n' ∉ l → P l)
    (more : ∀ l r, '\n' ∉ l → P r → P (l ++ '\n' :: r)) (t : Text) : P t := by
  generalize hn : t.length = n
  induction n using Nat.strongRecOn generalizing t with
  | ind n ih =>
    rcases exists_line t with hone | ⟨l, r, rfl, hl⟩
    · exact one t hone
    · have hlt : r.length < n := by
        rw [← hn, List.length_append, List.length_cons]
        omega
      exact more l r hl (ih r.length hlt r rfl)

/-- Without a separator there is one piece. -/
theorem splitAtEach_eq_singleton {sep : Char → Bool} {w : Text} (h : ∀ c ∈ w, sep c = false) :
    splitAtEach sep w = [w] := by
  induction w with
  | nil => rfl
  | cons c w ih =>
    rw [List.forall_mem_cons] at h
    rw [splitAtEach_cons, h.1, if_neg Bool.false_ne_true, ih h.2]

/-- A piece without separators ends at the first separator. -/
theorem splitAtEach_append {sep : Char → Bool} {w : Text} {c : Char}
    (h : ∀ c ∈ w, sep c = false) (hc : sep c = true) (r : Text) :
    splitAtEach sep (w ++ c :: r) = w :: splitAtEach sep r := by
  induction w with
  | nil => rw [List.nil_append, splitAtEach_cons, if_pos hc]
  | cons d w ih =>
    rw [List.forall_mem_cons] at h
    rw [List.cons_append, splitAtEach_cons, h.1, if_neg Bool.false_ne_true, ih h.2]

/-- A text without line feeds is one line. -/
theorem lines_eq_singleton {l : Text} (h : '\n' ∉ l) : lines l = [l] :=
  splitAtEach_eq_singleton fun _ hc => beq_false_of_ne (ne_of_mem_of_not_mem hc h)

/-- The first line ends at the first line feed. -/
theorem lines_append {l : Text} (h : '\n' ∉ l) (r : Text) :
    lines (l ++ '\n' :: r) = l :: lines r :=
  splitAtEach_append (fun _ hc => beq_false_of_ne (ne_of_mem_of_not_mem hc h)) rfl r

/-- Two texts with a line feed between them have the lines of both. -/
theorem lines_append_feed (t u : Text) : lines (t ++ '\n' :: u) = lines t ++ lines u := by
  induction t using lines_induction with
  | one t ht => rw [lines_append ht, lines_eq_singleton ht, List.singleton_append]
  | more l r hl ih =>
    rw [List.append_assoc, List.cons_append, lines_append hl, ih, lines_append hl, List.cons_append]

/-- One piece needs nothing between. -/
theorem joinWith_singleton (sep w : Text) : joinWith sep [w] = w :=
  List.intercalate_singleton

/-- The separator stands between the first two pieces. -/
theorem joinWith_cons_cons (sep w v : Text) (pieces : List Text) :
    joinWith sep (w :: v :: pieces) = w ++ (sep ++ joinWith sep (v :: pieces)) := by
  rw [joinWith, List.intercalate_cons_cons, List.append_assoc]
  rfl

/-- What is neither in the separator nor in a piece is not in the whole. -/
theorem not_mem_joinWith {sep : Text} {a : Char} (hsep : a ∉ sep) {pieces : List Text}
    (h : ∀ w ∈ pieces, a ∉ w) : a ∉ joinWith sep pieces := by
  induction pieces with
  | nil => exact List.not_mem_nil
  | cons w pieces ih =>
    rw [List.forall_mem_cons] at h
    cases pieces with
    | nil =>
      rw [joinWith_singleton]
      exact h.1
    | cons v pieces =>
      rw [joinWith_cons_cons, List.mem_append, List.mem_append, not_or, not_or]
      exact ⟨h.1, hsep, ih h.2⟩

/-- Characters that the separator does not hold are all in the pieces. -/
theorem filter_joinWith {keep : Char → Bool} {sep : Text} (hsep : sep.filter keep = [])
    (pieces : List Text) : (joinWith sep pieces).filter keep = pieces.flatten.filter keep := by
  induction pieces with
  | nil => rfl
  | cons w pieces ih =>
    cases pieces with
    | nil => rw [joinWith_singleton, List.flatten_singleton]
    | cons v pieces =>
      rw [joinWith_cons_cons, List.filter_append, List.filter_append, hsep, List.nil_append, ih,
        List.flatten_cons (l := w), List.filter_append]

/-- Each piece is a stretch of the whole. -/
theorem infix_joinWith {sep w : Text} {pieces : List Text} (h : w ∈ pieces) :
    w <:+: joinWith sep pieces := by
  induction pieces with
  | nil => cases h
  | cons v pieces ih =>
    cases pieces with
    | nil =>
      have hwhole : joinWith sep [v] = w := by rw [joinWith_singleton, List.mem_singleton.mp h]
      exact hwhole ▸ List.infix_rfl
    | cons v' pieces =>
      rw [joinWith_cons_cons]
      rcases List.mem_cons.mp h with rfl | h
      · exact (List.prefix_append _ _).isInfix
      · exact (ih h).trans ((List.suffix_append _ _).trans (List.suffix_append _ _)).isInfix

/-- One line is written without a line feed. -/
theorem unlines_singleton (l : Text) : unlines [l] = l := by
  rw [unlines, joinWith, List.intercalate_singleton]

/-- The first of several lines is written with a line feed behind it. -/
theorem unlines_cons (l : Text) {ls : List Text} (h : ls ≠ []) :
    unlines (l :: ls) = l ++ '\n' :: unlines ls := by
  obtain ⟨l', ls, rfl⟩ := List.exists_cons_of_ne_nil h
  rw [unlines, joinWith, List.intercalate_cons_cons, unlines, joinWith]
  simp

/-- A character at the start of the first line is the first of the text. -/
theorem unlines_cons_cons (a : Char) (l : Text) (ls : List Text) :
    unlines ((a :: l) :: ls) = a :: unlines (l :: ls) := by
  obtain _ | ⟨l', ls⟩ := ls
  · rw [unlines_singleton, unlines_singleton]
  · rw [unlines_cons _ (List.cons_ne_nil l' ls), unlines_cons _ (List.cons_ne_nil l' ls)]
    rfl

/-- Every text has a line, if an empty one. -/
theorem lines_ne_nil (t : Text) : lines t ≠ [] := splitAtEach_ne_nil _ t

/-- The first line of a text, and what comes behind it. -/
theorem exists_of_lines_eq {t l : Text} {ls : List Text} (h : lines t = l :: ls) :
    ∃ r, t = l ++ r ∧ r.head?.all (· == '\n') = true := by
  rcases exists_line t with hone | ⟨l', r, rfl, hl'⟩
  · rw [lines_eq_singleton hone, List.cons.injEq] at h
    exact ⟨[], by rw [h.1, List.append_nil], rfl⟩
  · rw [lines_append hl', List.cons.injEq] at h
    exact ⟨'\n' :: r, by rw [h.1], rfl⟩

/-- A line holds no line feed. -/
theorem not_mem_of_mem_lines {t l : Text} (h : l ∈ lines t) : '\n' ∉ l := by
  induction t using lines_induction with
  | one t ht =>
    rw [lines_eq_singleton ht, List.mem_singleton] at h
    exact h ▸ ht
  | more l' r hl' ih =>
    rw [lines_append hl', List.mem_cons] at h
    rcases h with rfl | h
    · exact hl'
    · exact ih h

/-- Lines put together are the lines of the text. -/
theorem lines_unlines {ls : List Text} (hne : ls ≠ []) (h : ∀ l ∈ ls, '\n' ∉ l) :
    lines (unlines ls) = ls := by
  induction ls with
  | nil => exact absurd rfl hne
  | cons l ls ih =>
    obtain _ | ⟨l', ls⟩ := ls
    · rw [unlines_singleton, lines_eq_singleton (h l (by simp))]
    · rw [unlines_cons l (List.cons_ne_nil l' ls), lines_append (h l (by simp)),
        ih (List.cons_ne_nil l' ls) (fun x hx => h x (List.mem_cons_of_mem l hx))]

/-- The first lines of a text that is put together of lines. -/
theorem prefix_lines_unlines {header ls : List Text} (h : header <+: ls)
    (hlines : ∀ l ∈ header, '\n' ∉ l) : header <+: lines (unlines ls) := by
  induction header generalizing ls with
  | nil => exact List.nil_prefix
  | cons l header ih =>
    obtain ⟨more, rfl⟩ := h
    rw [List.forall_mem_cons] at hlines
    rw [List.cons_append]
    by_cases hnone : header ++ more = []
    · have hone : lines (unlines (l :: (header ++ more))) = l :: header := by
        rw [hnone, unlines_singleton, lines_eq_singleton hlines.1,
          (List.append_eq_nil_iff.mp hnone).1]
      exact hone ▸ List.prefix_rfl
    · rw [unlines_cons l hnone, lines_append hlines.1, List.cons_prefix_cons]
      exact ⟨rfl, ih (List.prefix_append header more) hlines.2⟩

/-- A stretch on one line of a text is part of its first line, or stands behind it. -/
theorem first_line_cases {l r v w r' : Text} (heq : l ++ '\n' :: r = v ++ (w ++ r'))
    (hw : '\n' ∉ w) :
    (∃ z, l = v ++ (w ++ z) ∧ r' = z ++ '\n' :: r) ∨
      ∃ v', v = l ++ '\n' :: v' ∧ r = v' ++ (w ++ r') := by
  rw [← List.append_assoc] at heq
  rcases append_eq_append_cons heq.symm with ⟨c, hc, hr⟩ | ⟨z, hz, hr'⟩
  · rcases append_eq_append_cons hc with ⟨v', hv, hv'⟩ | ⟨c', -, rfl⟩
    · exact .inr ⟨v', hv, by rw [hr, hv', List.append_assoc]⟩
    · exact absurd (List.mem_append_right c' List.mem_cons_self) hw
  · exact .inl ⟨z, by rw [hz, List.append_assoc], hr'⟩

/-- What stands at the end of a line. -/
theorem exists_suffix_iff {t w : Text} : (∃ l ∈ lines t, w <:+ l) ↔
    ∃ v r, t = v ++ (w ++ r) ∧ '\n' ∉ w ∧ r.head?.all (· == '\n') = true := by
  induction t using lines_induction with
  | one t ht =>
    rw [lines_eq_singleton ht]
    constructor
    · rintro ⟨l, hl, v, hv⟩
      obtain rfl := List.mem_singleton.mp hl
      exact ⟨v, [], by rw [List.append_nil, hv], fun h => ht (hv ▸ List.mem_append_right v h), rfl⟩
    · rintro ⟨v, r, rfl, -, hr⟩
      obtain _ | ⟨c, r⟩ := r
      · exact ⟨_, List.mem_singleton_self _, v, by rw [List.append_nil]⟩
      · obtain rfl : c = '\n' := by simpa using hr
        exact absurd (by simp) ht
  | more l r hl ih =>
    rw [lines_append hl]
    constructor
    · rintro ⟨l', hl', hw⟩
      rcases List.mem_cons.mp hl' with rfl | hl'
      · obtain ⟨v, rfl⟩ := hw
        exact ⟨v, '\n' :: r, by simp, fun h => hl (List.mem_append_right v h), rfl⟩
      · obtain ⟨v, r', rfl, hw', hr'⟩ := ih.mp ⟨l', hl', hw⟩
        exact ⟨l ++ '\n' :: v, r', by simp, hw', hr'⟩
    · rintro ⟨v, r', heq, hw, hr'⟩
      -- The stretch ends in the first line, or it lies behind that line.
      rcases first_line_cases heq hw with ⟨z, rfl, hz⟩ | ⟨v', -, hr⟩
      · obtain _ | ⟨c, z⟩ := z
        · exact ⟨_, List.mem_cons_self, v, by rw [List.append_nil]⟩
        · obtain rfl : c = '\n' := by
            rw [hz] at hr'
            simpa using hr'
          exact absurd (by simp) hl
      · obtain ⟨l', hl', hsuffix⟩ := ih.mpr ⟨v', r', hr, hw, hr'⟩
        exact ⟨l', List.mem_cons_of_mem l hl', hsuffix⟩

/-! ### The ends of lines -/

/-- To drop from the end is the library's `rdropWhile`. -/
theorem dropEndWhile_eq (p : Char → Bool) (t : Text) : dropEndWhile p t = t.rdropWhile p := rfl

/-- Nothing is left exactly if all of the text is dropped. -/
theorem dropEndWhile_eq_nil_iff {p : Char → Bool} {t : Text} :
    dropEndWhile p t = [] ↔ t.all p = true := by
  rw [dropEndWhile_eq, List.rdropWhile_eq_nil_iff, List.all_eq_true]

/-- The first character stays as long as not all of the text is dropped. -/
theorem dropEndWhile_cons {p : Char → Bool} {a : Char} {t : Text} (h : (a :: t).all p = false) :
    dropEndWhile p (a :: t) = a :: dropEndWhile p t := by
  induction t using List.reverseRecOn with
  | nil =>
    rw [dropEndWhile_eq, List.rdropWhile_singleton]
    simp_all [dropEndWhile]
  | append_singleton t b ih =>
    rw [dropEndWhile_eq, dropEndWhile_eq, ← List.cons_append, List.rdropWhile_concat,
      List.rdropWhile_concat]
    by_cases hb : p b = true
    · rw [if_pos hb, if_pos hb]
      refine ih ?_
      rwa [← List.cons_append, List.all_append, List.all_cons (a := b), hb, List.all_nil,
        Bool.and_true, Bool.and_true] at h
    · rw [if_neg hb, if_neg hb]
      rfl

/-- A text is what is left without some characters at its end, and those characters. -/
theorem exists_dropEndWhile (p : Char → Bool) (t : Text) :
    ∃ s, s.all p = true ∧ t = dropEndWhile p t ++ s :=
  ⟨t.rtakeWhile p, List.all_eq_true.mpr fun _ hc => List.mem_rtakeWhile_imp hc,
    List.rdropWhile_append_rtakeWhile.symm⟩

/-- A text is what is left without some characters around it, and those characters. -/
theorem exists_dropAroundWhile (p : Char → Bool) (t : Text) :
    ∃ s s', t = s ++ (dropAroundWhile p t ++ s') ∧ s.all p = true ∧ s'.all p = true := by
  obtain ⟨s', hs', hsplit⟩ := exists_dropEndWhile p (t.dropWhile p)
  refine ⟨t.takeWhile p, s', ?_, List.all_takeWhile, hs'⟩
  rw [dropAroundWhile, ← hsplit, List.takeWhile_append_dropWhile]

/-- A text is what is left without the white space around it, and that white space. -/
theorem exists_blanks_around (t : Text) :
    ∃ s s', t = s ++ (trim t ++ s') ∧ s.all isBlank = true ∧ s'.all isBlank = true :=
  exists_dropAroundWhile isBlank t

/-- A text without the white space around it begins with no white space, and ends with none. -/
theorem ends_trim (t : Text) : (trim t).head?.all (fun c => !isBlank c) = true ∧
    (trim t).getLast?.all (fun c => !isBlank c) = true := by
  have hbegin := List.head?_dropWhile_not isBlank t
  generalize hr : t.dropWhile isBlank = r at hbegin
  have htrim : trim t = r.rdropWhile isBlank := by
    rw [trim, dropAroundWhile, hr, dropEndWhile_eq]
  rw [htrim]
  constructor
  · -- What the second pass leaves begins as what it starts from, so it does not undo the first one.
    cases hhead : (r.rdropWhile isBlank).head? with
    | none => rfl
    | some c =>
      obtain ⟨z, hz⟩ := List.rdropWhile_prefix isBlank r
      rw [← hz, List.head?_append, hhead] at hbegin
      rw [Option.all_some, Bool.not_eq_true']
      exact hbegin
  · cases hlast : (r.rdropWhile isBlank).getLast? with
    | none => rfl
    | some c =>
      have hne : r.rdropWhile isBlank ≠ [] := by
        intro hnil
        rw [hnil] at hlast
        cases hlast
      have hnot := List.rdropWhile_last_not isBlank r hne
      rw [List.getLast?_eq_getLast_of_ne_nil hne, Option.some.injEq] at hlast
      rw [hlast, Bool.not_eq_true] at hnot
      rw [Option.all_some, hnot]
      rfl

/-- What begins and ends with no white space stays as it is. -/
theorem trim_eq_self {t : Text} (hhead : t.head?.all (fun c => !isBlank c) = true)
    (hlast : t.getLast?.all (fun c => !isBlank c) = true) : trim t = t := by
  have hdrop : t.dropWhile isBlank = t := by
    cases t with
    | nil => rfl
    | cons c t =>
      rw [List.head?_cons, Option.all_some, Bool.not_eq_true'] at hhead
      rw [List.dropWhile_cons, hhead, if_neg Bool.false_ne_true]
  rw [trim, dropAroundWhile, hdrop, dropEndWhile_eq, List.rdropWhile_eq_self_iff]
  intro hne hblank
  rw [List.getLast?_eq_getLast_of_ne_nil hne, Option.all_some, hblank] at hlast
  cases hlast

/-- A trimmed text stays as it is. -/
theorem trim_trim (t : Text) : trim (trim t) = trim t :=
  trim_eq_self (ends_trim t).1 (ends_trim t).2

/-- White space around a text is trimmed away. -/
theorem trim_around {s s' : Text} (hs : s.all isBlank = true) (hs' : s'.all isBlank = true)
    (t : Text) : trim (s ++ (t ++ s')) = trim t := by
  have hend (u : Text) : dropEndWhile isBlank (u ++ s') = dropEndWhile isBlank u := by
    rw [dropEndWhile, List.reverse_append, List.dropWhile_append_of_pos, dropEndWhile]
    exact fun c hc => List.all_eq_true.mp hs' c (List.mem_reverse.mp hc)
  rw [trim, dropAroundWhile, List.dropWhile_append_of_pos (List.all_eq_true.mp hs),
    List.dropWhile_append, trim, dropAroundWhile]
  split
  · next hblank =>
    have hnil : s'.dropWhile isBlank = [] :=
      List.dropWhile_eq_nil_iff.mpr (List.all_eq_true.mp hs')
    rw [hnil, List.isEmpty_iff.mp hblank]
  · exact hend _

/-- White space in front is trimmed. -/
theorem trim_blanks_append {s : Text} (hs : s.all isBlank = true) (t : Text) :
    trim (s ++ t) = trim t := by
  have haround := trim_around hs List.all_nil t
  rwa [List.append_nil] at haround

/-- Stretches of characters of a set end at the same place. -/
theorem append_inj_of_all {p : Char → Bool} {u v u' v' : Text} (hu : u.all p = true)
    (hu' : u'.all p = true) (hv : v.head?.all (fun c => !p c) = true)
    (hv' : v'.head?.all (fun c => !p c) = true) (h : u ++ v = u' ++ v') : u = u' ∧ v = v' := by
  have htake {u v : Text} (hu : u.all p = true) (hv : v.head?.all (fun c => !p c) = true) :
      (u ++ v).takeWhile p = u := by
    rw [List.takeWhile_append_of_pos (List.all_eq_true.mp hu)]
    cases v with
    | nil => simp
    | cons c v => simp_all
  obtain rfl : u = u' := by rw [← htake hu hv, h, htake hu' hv']
  exact ⟨rfl, List.append_cancel_left h⟩

/-- Stretches of characters of a set begin at the same place. -/
theorem append_inj_of_all_right {p : Char → Bool} {u v u' v' : Text} (hv : v.all p = true)
    (hv' : v'.all p = true) (hu : u.getLast?.all (fun c => !p c) = true)
    (hu' : u'.getLast?.all (fun c => !p c) = true) (h : u ++ v = u' ++ v') : u = u' ∧ v = v' := by
  rw [← List.all_reverse] at hv hv'
  rw [← List.head?_reverse] at hu hu'
  have hreverse := congrArg List.reverse h
  rw [List.reverse_append, List.reverse_append] at hreverse
  obtain ⟨hsame, hsame'⟩ := append_inj_of_all hv hv' hu hu' hreverse
  exact ⟨List.reverse_injective hsame', List.reverse_injective hsame⟩

section Cut

variable {p : Char → Bool} {u v w z : Text} {a b : Char}

/-- A text is cut in one way at its first character that fails a test. -/
theorem eq_of_first (hu : u.all p = true) (hw : w.all p = true) (ha : p a = false)
    (hb : p b = false) (h : u ++ a :: v = w ++ b :: z) : u = w ∧ a = b ∧ v = z := by
  obtain ⟨rfl, hrest⟩ := append_inj_of_all hu hw (by simp [ha]) (by simp [hb]) h
  exact ⟨rfl, List.cons.inj hrest⟩

/-- A text is cut in one way at its last character that fails a test. -/
theorem eq_of_last (hv : v.all p = true) (hz : z.all p = true) (ha : p a = false)
    (hb : p b = false) (h : u ++ a :: v = w ++ b :: z) : u = w ∧ a = b ∧ v = z := by
  rw [List.append_cons, List.append_cons w] at h
  obtain ⟨hfront, rfl⟩ := append_inj_of_all_right hv hz (by simp [ha]) (by simp [hb]) h
  obtain ⟨rfl, hlast⟩ := List.append_inj' hfront rfl
  exact ⟨rfl, List.head_eq_of_cons_eq hlast, rfl⟩

end Cut

/-- Behind what is taken stands what is dropped otherwise. -/
theorem drop_takeWhile (p : Char → Bool) (r : Text) :
    r.drop (r.takeWhile p).length = r.dropWhile p :=
  calc r.drop (r.takeWhile p).length
      = (r.takeWhile p ++ r.dropWhile p).drop (r.takeWhile p).length := by
        rw [List.takeWhile_append_dropWhile]
    _ = r.dropWhile p := List.drop_left

/-- Behind all leading characters of a set comes none. -/
theorem head?_dropWhile_any (p : Char → Bool) (r : Text) :
    (r.dropWhile p).head?.any p = false := by
  have hend := List.head?_dropWhile_not p r
  cases hhead : (r.dropWhile p).head? with
  | none => rfl
  | some a =>
    rw [hhead] at hend
    exact hend

/-- Behind the rest of a line the text ends, or the line does. -/
theorem head?_drop_line (r : Text) :
    (r.drop (r.takeWhile (· != '\n')).length).head?.all (· == '\n') = true := by
  rw [drop_takeWhile]
  have hend := List.head?_dropWhile_not (· != '\n') r
  cases hhead : (r.dropWhile (· != '\n')).head? with
  | none => rfl
  | some a =>
    rw [hhead] at hend
    simpa using hend

/-! ### First lines, and the lines behind them -/

/-- The first line of a text. -/
def firstLine (t : Text) : Text := t.takeWhile (· != '\n')

/-- The first line holds no line feed. -/
theorem not_mem_firstLine (t : Text) : '\n' ∉ firstLine t := fun hmem => by
  simpa using List.mem_takeWhile_imp hmem

/-- The first line goes on over a text without line feeds. -/
theorem firstLine_append_of_not_mem {l : Text} (hl : '\n' ∉ l) (t : Text) :
    firstLine (l ++ t) = l ++ firstLine t :=
  List.takeWhile_append_of_pos fun _ hc => bne_iff_ne.mpr (ne_of_mem_of_not_mem hc hl)

/-- The first line does not go on over a line feed. -/
theorem firstLine_append_of_mem {t : Text} (ht : '\n' ∈ t) (r : Text) :
    firstLine (t ++ r) = firstLine t := by
  obtain ⟨l, s, rfl, hl⟩ := List.eq_append_cons_of_mem ht
  rw [List.append_assoc, firstLine_append_of_not_mem hl, firstLine_append_of_not_mem hl]
  rfl

/-- A text that is empty or begins with a line feed has an empty first line. -/
theorem firstLine_of_head? {t : Text} (ht : t.head?.all (· == '\n') = true) :
    firstLine t = [] := by
  cases t with
  | nil => rfl
  | cons a t =>
    rw [List.head?_cons, Option.all_some, beq_iff_eq] at ht
    rw [ht]
    rfl

/-- A line is the first one if nothing or a line feed is behind it. -/
theorem firstLine_eq {l t : Text} (hl : '\n' ∉ l) (ht : t.head?.all (· == '\n') = true) :
    firstLine (l ++ t) = l := by
  rw [firstLine_append_of_not_mem hl, firstLine_of_head? ht, List.append_nil]

/-- A text without line feeds is its first line. -/
theorem firstLine_eq_self {t : Text} (h : '\n' ∉ t) : firstLine t = t := by
  rw [← List.append_nil t, firstLine_eq h rfl, List.append_nil]

/-- The rest of a line stays the same if what stands behind it begins with a line feed. -/
theorem firstLine_behind (t : Text) {r : Text} (hr : r.head?.all (· == '\n') = true) :
    (t.takeWhile (· != '\n') ++ r).takeWhile (· != '\n') = t.takeWhile (· != '\n') :=
  firstLine_eq (not_mem_firstLine t) hr

/-- The first of the lines is the first line. -/
theorem exists_lines_eq (t : Text) : ∃ ls, lines t = firstLine t :: ls := by
  rcases exists_line t with hone | ⟨l, r, rfl, hl⟩
  · exact ⟨[], by rw [lines_eq_singleton hone, firstLine_eq_self hone]⟩
  · exact ⟨lines r, by rw [lines_append hl, firstLine_eq hl rfl]⟩

/-- What stands behind a line feed is the last lines of the text. -/
theorem suffix_tail_lines (x y : Text) : lines y <:+ (lines (x ++ '\n' :: y)).tail := by
  rw [lines_append_feed]
  obtain ⟨ls, hls⟩ := exists_lines_eq x
  rw [hls, List.cons_append, List.tail_cons]
  exact List.suffix_append ls _

/-- What begins behind a line feed is a line, and not the first one. -/
theorem firstLine_mem_tail_lines (x y : Text) :
    firstLine y ∈ (lines (x ++ '\n' :: y)).tail := by
  obtain ⟨ls, hls⟩ := exists_lines_eq y
  exact (suffix_tail_lines x y).subset (hls ▸ List.mem_cons_self)

/-- Each line behind the first one begins behind a line feed. -/
theorem exists_of_mem_tail_lines {u l : Text} (h : l ∈ (lines u).tail) :
    ∃ x y, u = x ++ '\n' :: y ∧ l = firstLine y := by
  induction u using lines_induction with
  | one u hu =>
    rw [lines_eq_singleton hu] at h
    cases h
  | more l₀ r hl₀ ih =>
    obtain ⟨ls, hls⟩ := exists_lines_eq r
    rw [lines_append hl₀, List.tail_cons, hls, List.mem_cons] at h
    rcases h with rfl | h
    · exact ⟨l₀, r, rfl, rfl⟩
    · rw [hls, List.tail_cons] at ih
      obtain ⟨x, y, rfl, hy⟩ := ih h
      exact ⟨l₀ ++ '\n' :: x, y, by simp, hy⟩

/-- What stands at the end of a text without a line feed stands behind each line feed of it. -/
theorem exists_behind_feed {w x y z : Text} (hz : '\n' ∉ z) (h : w ++ z = x ++ '\n' :: y) :
    ∃ w', y = w' ++ z := by
  rcases append_eq_append_cons h with ⟨w', -, hy⟩ | ⟨c, -, rfl⟩
  · exact ⟨w', hy⟩
  · exact absurd (List.mem_append_right c List.mem_cons_self) hz

/-- Lines with a line feed in front of each, instead of between them. -/
theorem flatMap_feed {ls : List Text} (hne : ls ≠ []) :
    ls.flatMap ('\n' :: ·) = '\n' :: unlines ls := by
  induction ls with
  | nil => exact absurd rfl hne
  | cons l ls ih =>
    rw [List.flatMap_cons]
    by_cases hnil : ls = []
    · rw [hnil, unlines_singleton, List.flatMap_nil, List.append_nil]
    · rw [ih hnil, unlines_cons l hnil, List.cons_append]

/-! ### Lines that do not start at the margin -/

/-- Each line of the text is empty or starts with white space; `fresh` says whether a line starts
where the text does. -/
def isIndented (fresh : Bool) : Text → Bool
  | [] => true
  | c :: t => (!fresh || isBlank c) && isIndented (c == '\n') t

/-- Whether a line starts behind the text. -/
def endsFresh (fresh : Bool) : Text → Bool
  | [] => fresh
  | c :: t => endsFresh (c == '\n') t

/-- Whether a line starts behind two texts in a row. -/
theorem endsFresh_append (fresh : Bool) (t u : Text) :
    endsFresh fresh (t ++ u) = endsFresh (endsFresh fresh t) u := by
  induction t generalizing fresh with
  | nil => rfl
  | cons c t ih => exact ih _

/-- A line starts behind a text exactly if it ends with a line feed. -/
theorem endsFresh_concat (fresh : Bool) (t : Text) (c : Char) :
    endsFresh fresh (t ++ [c]) = (c == '\n') := by
  rw [endsFresh_append]
  rfl

/-- Two texts in a row are indented if both are, the second one from where the first one ends. -/
theorem isIndented_append (fresh : Bool) (t u : Text) :
    isIndented fresh (t ++ u) = (isIndented fresh t && isIndented (endsFresh fresh t) u) := by
  induction t generalizing fresh with
  | nil => rfl
  | cons c t ih => rw [List.cons_append, isIndented, isIndented, endsFresh, ih, Bool.and_assoc]

/-- What is indented at the start of a line is so elsewhere too. -/
theorem isIndented_of_fresh {t : Text} (h : isIndented true t = true) (fresh : Bool) :
    isIndented fresh t = true := by
  cases t with
  | nil => rfl
  | cons c t =>
    rw [isIndented, Bool.and_eq_true] at h ⊢
    refine ⟨?_, h.2⟩
    cases fresh with
    | true => exact h.1
    | false => rfl

/-- An indented text may stand behind any other. -/
theorem isIndented_append_of_fresh {t u : Text} (fresh : Bool) (ht : isIndented fresh t = true)
    (hu : isIndented true u = true) : isIndented fresh (t ++ u) = true := by
  rw [isIndented_append, ht, isIndented_of_fresh hu]
  rfl

/-- A text in which no line starts. -/
theorem isIndented_of_not_mem {t : Text} (h : '\n' ∉ t) : isIndented false t = true := by
  induction t with
  | nil => rfl
  | cons c t ih =>
    rw [List.mem_cons, not_or] at h
    rw [isIndented, beq_eq_false_iff_ne.mpr (Ne.symm h.1), ih h.2]
    rfl

/-- A line that starts with white space. -/
theorem isIndented_line {l : Text} (h : '\n' ∉ l) (hhead : l.head?.all isBlank = true) :
    isIndented true l = true := by
  cases l with
  | nil => rfl
  | cons c l =>
    have hc : isBlank c = true := hhead
    rw [List.mem_cons, not_or] at h
    rw [isIndented, hc, beq_eq_false_iff_ne.mpr (Ne.symm h.1), isIndented_of_not_mem h.2]
    rfl

/-- Lines that are empty or start with white space make an indented text. -/
theorem isIndented_unlines {ls : List Text}
    (h : ∀ l ∈ ls, '\n' ∉ l ∧ l.head?.all isBlank = true) :
    isIndented true (unlines ls) = true := by
  induction ls with
  | nil => rfl
  | cons l ls ih =>
    rw [List.forall_mem_cons] at h
    have hl := isIndented_line h.1.1 h.1.2
    cases ls with
    | nil => rwa [unlines_singleton]
    | cons l' ls =>
      rw [unlines_cons l (List.cons_ne_nil l' ls)]
      refine isIndented_append_of_fresh true hl ?_
      rw [isIndented, isIndented_of_fresh (ih h.2)]
      rfl

/-- The beginning of a text is indented if the text is. -/
theorem isIndented_beginning {fresh : Bool} {t u : Text} (h : t <+: u)
    (hu : isIndented fresh u = true) : isIndented fresh t = true := by
  obtain ⟨r, rfl⟩ := h
  rw [isIndented_append, Bool.and_eq_true] at hu
  exact hu.1

/-- No line starts behind a text without line feeds at its end. -/
theorem endsFresh_dropEndWhile {t : Text} (h : dropEndWhile (· == '\n') t ≠ []) (fresh : Bool) :
    endsFresh fresh (dropEndWhile (· == '\n') t) = false := by
  rw [dropEndWhile_eq] at h ⊢
  have hlast := List.rdropWhile_last_not (· == '\n') t h
  rw [← List.dropLast_append_getLast h, endsFresh_concat]
  simpa using hlast

/-- What is kept of each line is kept of the text. -/
theorem filter_unlines_map {keep : Char → Bool} {f : Text → Text}
    (hf : ∀ l, (f l).filter keep = l.filter keep) (ls : List Text) :
    (unlines (ls.map f)).filter keep = (unlines ls).filter keep := by
  induction ls with
  | nil => rfl
  | cons l ls ih =>
    cases ls with
    | nil => rw [List.map_singleton, unlines_singleton, unlines_singleton, hf]
    | cons l' ls =>
      rw [List.map_cons, unlines_cons _ (by simp), unlines_cons _ (List.cons_ne_nil l' ls),
        List.filter_append, List.filter_append, hf, List.filter_cons, List.filter_cons, ih]

end CodeTidy.Text
