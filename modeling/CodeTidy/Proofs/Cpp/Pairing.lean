import CodeTidy.Cpp.Table
import CodeTidy.Proofs.Pattern.Leads
import CodeTidy.Proofs.Rule.Header
import CodeTidy.Proofs.Text.Tables
import Mathlib.Logic.Function.Basic

/-!
# `CodeTidy.Proofs.Cpp.Pairing`: which `delete` the rule takes for a declaration

The rule for owning pointers goes through the declarations in order. For each of them it
looks for a line that gives up a pointer of that name, and takes the first one there is,
wherever it stands. So it does not pair by place but by number: of each name it takes the
first declarations and the first such lines, as many as there are of both.
`settled` is the text when some of them have been taken.

A text is given by its lines (`Layout`). A declaration stands on one line, a line that
gives up a pointer does nothing else, and the text of a declaration is found in
declarations of its name only. The theorems:

* `isDeletion_of_match`, `matchAt?_deletion`: the rule finds such lines, and the whole of them.
* `FirstGone.replaceFirst_eq`, `occursIn_of_clear`: the first of them goes away, if there is one.
* `isDeclaration_of_match`: what is known about a declaration.
* `firstGone_settled`, `clear_settled`: the next line to go away, as long as there is one.
* `replaceFirst_settled`: the next declaration is rewritten in its own place, as its text is found
  nowhere in front of it.
* `makeUnique_settled`: one step of the rule.
* `makePointersUnique_eq`: what the rule makes of a text.
-/

set_option autoImplicit false

namespace CodeTidy.Cpp

open Pattern Text

/-! ### Lines that give up a pointer -/

section Deletion

variable {n n' l d v w x y z r : Text} {c c' : Cursor} {m : Match}

/-- A statement that gives up the pointer of a name, up to its semicolon. -/
def GivesUp (n x : Text) : Prop :=
  ∃ i s s' : Text, x = i ++ ("delete" ++ (s ++ (n ++ s'))) ∧ i.all isIndent = true ∧
    s ≠ [] ∧ s.all isBlank = true ∧ s'.all isBlank = true

/-- A line that gives up the pointer of a name and does nothing else. -/
structure IsDeletion (n l : Text) : Prop where
  ne_nil : n ≠ []
  isName : n.all isWord = true
  eq_append : ∃ x j feed, l = x ++ ';' :: (j ++ feed) ∧ GivesUp n x ∧ j.all isIndent = true ∧
    (feed = [] ∨ feed = ['\n'])

/-- The text is a line in front of a rest: its only line feed is at its end, and it has one unless
nothing comes behind. -/
def IsLine (x r : Text) : Prop := '\n' ∉ x.dropLast ∧ (x.getLast? = some '\n' ∨ r = [])

/-- The statement holds no semicolon before its end and no equals sign. -/
theorem GivesUp.all_except (h : GivesUp n x) (hn : n.all isWord = true) :
    x.all (CharSet.except ";=") = true := by
  obtain ⟨i, s, s', rfl, hi, -, hs, hs'⟩ := h
  rw [List.all_append, List.all_append, List.all_append, List.all_append,
    all_except_of_all hi (by decide), all_except_of_all hs (by decide),
    all_except_of_all hn (by decide), all_except_of_all hs' (by decide)]
  decide

/-- The first character of a name is no white space. -/
theorem exists_of_name (hne : n ≠ []) (hn : n.all isWord = true) :
    ∃ a y, n = a :: y ∧ isBlank a = false := by
  obtain ⟨a, y, rfl⟩ := List.exists_cons_of_ne_nil hne
  have ha : isWord a = true := (List.all_eq_true.mp hn) a (.head _)
  refine ⟨a, y, rfl, Bool.eq_false_iff.mpr fun hblank => ?_⟩
  rw [isWord_of_isBlank hblank] at ha
  cases ha

/-- A statement gives up one pointer. -/
theorem GivesUp.name_eq (h : GivesUp n x) (h' : GivesUp n' x) (hne : n ≠ []) (hne' : n' ≠ [])
    (hn : n.all isWord = true) (hn' : n'.all isWord = true) : n = n' := by
  have hname {n b : Text} (hne : n ≠ []) (hn : n.all isWord = true) :
      (n ++ b).head?.all (fun a => !isBlank a) = true := by
    obtain ⟨a, y, rfl, ha⟩ := exists_of_name hne hn
    simp [ha]
  have hend {s : Text} (hs : s.all isBlank = true) : s.head?.all (fun a => !isWord a) = true := by
    cases s with
    | nil => rfl
    | cons a s => simpa using isWord_of_isBlank ((List.all_eq_true.mp hs) a (.head _))
  obtain ⟨i, s, b, rfl, hi, -, hs, hb⟩ := h
  obtain ⟨i', s', b', heq, hi', -, hs', hb'⟩ := h'
  obtain ⟨-, hrest⟩ := append_inj_of_all hi hi' rfl rfl heq
  obtain ⟨-, hrest⟩ := append_inj_of_all hs hs' (hname hne hn) (hname hne' hn')
    (List.append_cancel_left hrest)
  exact (append_inj_of_all hn hn' (hend hb) (hend hb') hrest).1

/-- A line that begins as a line that gives up a pointer gives up the same one. -/
theorem IsDeletion.name_eq (h : IsDeletion n d) (h' : IsDeletion n' l) (hd : d <+: l ++ r) :
    n = n' := by
  obtain ⟨x, j, feed, rfl, hx, -⟩ := h.eq_append
  obtain ⟨x', j', feed', rfl, hx', -⟩ := h'.eq_append
  obtain ⟨u, hu⟩ := hd
  have hself : CharSet.except ";=" ';' = false := by decide
  rw [List.append_assoc, List.append_assoc] at hu
  obtain ⟨rfl, -⟩ := eq_of_first (hx.all_except h.isName) (hx'.all_except h'.isName) hself hself hu
  exact hx.name_eq hx' h.ne_nil h'.ne_nil h.isName h'.isName

/-- A text with an equals sign in front of its first semicolon does not begin as such a line. -/
theorem IsDeletion.not_begins (h : IsDeletion n d) (hx : ';' ∉ x) : ¬d <+: x ++ '=' :: y := by
  rintro ⟨u, hu⟩
  obtain ⟨front, j, feed, rfl, hfront, -⟩ := h.eq_append
  have hequals : '=' ∉ front :=
    all_except_iff.mp (hfront.all_except h.isName) '=' (by decide)
  rw [List.append_assoc] at hu
  obtain ⟨x', rfl, hx'⟩ := exists_of_append_eq hequals hu
  cases x' with
  | nil => exact absurd (List.head_eq_of_cons_eq hx') (by decide)
  | cons a x' =>
    obtain ⟨rfl, -⟩ := List.cons.inj hx'
    simp at hx

/-- What the pattern matches is a line that gives up the pointer. -/
theorem isDeletion_of_match (hne : n ≠ []) (hn : n.all isWord = true)
    (h : (deleteOf n).matchAt? c = some m) : c.atLineStart = true ∧ IsDeletion n m.text := by
  obtain ⟨rfl, c₁, caps₁, ⟨hline, rfl, rfl⟩, -⟩ := takes_of_matchAt? h
  have hspells := spells_of_match (p := seq [indent, "delete", space1, Pattern.text n, space, ";",
    indent, opt "\n"]) h
  simp only [indent, space1, space, many, many1, spells_run_then, spells_text_then, spells_seq_one,
    spells_opt, spells_text] at hspells
  obtain ⟨i, hi, -, _, hm, _, rfl, s, hs, hlen, _, rfl, _, rfl, s', hs', -, _, rfl, _,
    rfl, j, hj, -, feed, rfl, hfeed⟩ := hspells
  refine ⟨hline, hne, hn, i ++ ("delete" ++ (s ++ (n ++ s'))), j, feed, ?_, ?_, hj, ?_⟩
  · rw [← hm]
    simp
  · exact ⟨i, s, s', rfl, hi, List.ne_nil_of_length_pos hlen, hs, hs'⟩
  · exact hfeed.symm.imp And.left fun h => h.1.symm

/-- The whole of a line that gives up a pointer is found. -/
theorem matchAt?_deletion (h : IsDeletion n l) (hline : IsLine l c'.after)
    (hstart : c.atLineStart = true) (hreads : c.Reads l c') :
    (deleteOf n).matchAt? c = some ⟨c, c', []⟩ := by
  obtain ⟨_, j, feed, rfl, ⟨i, s, s', rfl, hi, hne, hs, hs'⟩, hj, hfeed⟩ := h.eq_append
  -- Without a line feed the line is the last one.
  have hfeeds : feed = [] → c'.after = [] := by
    rintro rfl
    refine hline.2.resolve_left fun hlast => ?_
    rw [List.append_nil, List.getLast?_append_of_ne_nil _ (List.cons_ne_nil ';' j)] at hlast
    rcases List.mem_cons.mp (List.mem_of_getLast? hlast) with hsemicolon | hmem
    · cases hsemicolon
    · exact not_mem_of_all hj (by decide) hmem
  rw [List.append_assoc, List.append_assoc, List.append_assoc, List.append_assoc] at hreads
  obtain ⟨c₁, hread₁, hrest₁⟩ := hreads.split
  obtain ⟨c₂, hread₂, hrest₂⟩ := hrest₁.split
  obtain ⟨c₃, hread₃, hrest₃⟩ := hrest₂.split
  obtain ⟨c₄, hread₄, hrest₄⟩ := hrest₃.split
  obtain ⟨c₅, hread₅, hrest₅⟩ := hrest₄.split
  obtain ⟨c₆, hread₆, hrest₆⟩ := Cursor.Reads.split (u := [';']) hrest₅
  obtain ⟨c₇, hread₇, hrest₇⟩ := hrest₆.split
  -- The run of white space ends at the name, and the last one at the line feed.
  have hname : c₃.after.head?.any isBlank = false := by
    obtain ⟨a, y, rfl, ha⟩ := exists_of_name h.ne_nil h.isName
    rw [hrest₃.after_eq]
    exact ha
  have hend : c₇.after.head?.any isIndent = false := by
    rw [hrest₇.after_eq]
    rcases hfeed with rfl | rfl
    · rw [hfeeds rfl]
      rfl
    · rfl
  -- The pattern takes the line feed if there is one.
  have hfeed' : Leads (opt "\n") c₇ [] c' [] := by
    rcases hfeed with rfl | rfl
    · obtain rfl := hrest₇.unique (.refl c₇)
      refine Leads.right leads_empty fun d caps htakes => ?_
      have hread := (takes_text_iff.mp htakes).1.after_eq
      rw [hfeeds rfl] at hread
      cases hread
    · exact Leads.left (leads_text hrest₇)
  have hlength : 1 ≤ s.length := List.length_pos_of_ne_nil hne
  have hleads : Leads (deleteOf n) c [] c' [] :=
    .both (leads_place hstart) <|
    .both (leads_run hi (Nat.zero_le _) hread₁ (by rw [hrest₁.after_eq]; rfl)) <|
    .both (leads_text hread₂) <|
    .both (leads_run hs hlength hread₃ hname) <|
    .both (leads_text hread₄) <|
    .both (leads_run hs' (Nat.zero_le _) hread₅ (by rw [hrest₅.after_eq]; rfl)) <|
    .both (leads_text hread₆) <|
    .both (leads_run hj (Nat.zero_le _) hread₇ hend) hfeed'
  exact hleads.matchAt?

/-! ### The first line that gives up a pointer -/

/-- No line that gives up a pointer of the name starts in the text, with the rest behind it. -/
def Clear (n v r : Text) : Prop :=
  ∀ w z, v = w ++ z → z ≠ [] → EndsFresh w → ∀ d, IsDeletion n d → ¬d <+: z ++ r

/-- An empty text is clear. -/
theorem clear_nil : Clear n [] r := by
  intro w z heq hz
  exact absurd (List.append_eq_nil_iff.mp heq.symm).2 hz

/-- A line is clear if it does not begin as one that gives up the pointer. -/
theorem clear_of_isLine (h : IsLine x r) (hx : ∀ d, IsDeletion n d → ¬d <+: x ++ r) :
    Clear n x r := by
  rintro w z rfl hz (rfl | hw)
  · exact hx
  · refine absurd ?_ h.1
    rw [List.dropLast_append_of_ne_nil hz]
    exact List.mem_append_left _ (List.mem_of_getLast? hw)

/-- Two clear texts in a row are clear. -/
theorem Clear.append (h : Clear n v (y ++ r)) (h' : Clear n y r) : Clear n (v ++ y) r := by
  intro w z heq hz hw d hd
  rcases List.append_eq_append_iff.mp heq with ⟨a, rfl, rfl⟩ | ⟨a, rfl, rfl⟩
  · refine h' a z rfl hz ?_ d hd
    rcases hw with hw | hw
    · exact .inl (List.append_eq_nil_iff.mp hw).2
    · cases a with
      | nil => exact .inl rfl
      | cons b a => exact .inr (by simpa using hw)
  · cases a with
    | nil => exact h' [] y rfl hz (.inl rfl) d hd
    | cons b a =>
      rw [List.append_assoc]
      exact h w (b :: a) rfl (List.cons_ne_nil b a) hw d hd

/-- Whether the cursor stands at the start of a line is said by the text in front of it. -/
theorem endsFresh_of_reads {t : Text} (h : (Cursor.start t).Reads w c) :
    c.atLineStart = true ↔ EndsFresh w := by
  rw [Cursor.atLineStart, h.before_eq, Cursor.start, List.append_nil, List.head?_reverse, EndsFresh]
  cases w using List.reverseRecOn with
  | nil => simp
  | append_singleton w b => simp

/-- A line that gives up a pointer is found behind the text in front of it. -/
theorem matchesBehind_deletion (h : IsDeletion n l) (hl : IsLine l r) (hv : EndsFresh v) :
    ∃ m, MatchesBehind (deleteOf n) (v ++ (l ++ r)) v m ∧ m.start.pos = v.length ∧
      m.stop.after = r := by
  obtain ⟨c, hreads, hafter⟩ := Cursor.exists_reads (c := Cursor.start (v ++ (l ++ r))) rfl
  obtain ⟨c', hreads', rfl⟩ := Cursor.exists_reads hafter
  have hmatch := matchAt?_deletion h hl ((endsFresh_of_reads hreads).mpr hv) hreads'
  refine ⟨⟨c, c', []⟩, ⟨hreads, hmatch⟩, ?_, rfl⟩
  simpa [Cursor.start] using hreads.pos_eq

/-- The first line that gives up the pointer goes away. -/
theorem replaceFirst_deletion (hclear : Clear n v (l ++ r)) (hv : EndsFresh v)
    (h : IsDeletion n l) (hl : IsLine l r) :
    (deleteOf n).replaceFirst (fun _ => []) (v ++ (l ++ r)) = v ++ r := by
  obtain ⟨m, hm, hpos, hafter⟩ := matchesBehind_deletion h hl hv
  have hfirst : (deleteOf n).find? (v ++ (l ++ r)) = some m := by
    refine find?_eq_some_of_first hm fun w m' hm' => Nat.le_of_not_lt fun hlt => ?_
    obtain ⟨hstart, hd⟩ := isDeletion_of_match h.ne_nil h.isName hm'.2
    have heq := hm'.eq_append
    rcases List.append_eq_append_iff.mp heq with ⟨z, rfl, -⟩ | ⟨z, rfl, hz⟩
    · rw [List.length_append] at hlt
      omega
    · refine hclear w z rfl (fun hnil => ?_) ((endsFresh_of_reads hm'.1).mp hstart) _ hd ⟨_, hz⟩
      simp [hnil] at hlt
  rw [Pattern.replaceFirst, hfirst]
  simp [hpos, hafter]

/-- The first line that gives up the pointer of a name has been taken out of a text. -/
def FirstGone (n t t' : Text) : Prop :=
  ∃ v l r, t = v ++ (l ++ r) ∧ t' = v ++ r ∧ Clear n v (l ++ r) ∧ EndsFresh v ∧ IsDeletion n l ∧
    IsLine l r

/-- The first line that gives up the pointer is found and taken out. -/
theorem FirstGone.replaceFirst_eq {t t' : Text} (h : FirstGone n t t') :
    (deleteOf n).occursIn t = true ∧ (deleteOf n).replaceFirst (fun _ => []) t = t' := by
  obtain ⟨v, l, r, rfl, rfl, hclear, hv, hd, hl⟩ := h
  obtain ⟨m, hm, -⟩ := matchesBehind_deletion hd hl hv
  exact ⟨occursIn_iff.mpr ⟨v, m, hm⟩, replaceFirst_deletion hclear hv hd hl⟩

/-- A line in front that is clear stays. -/
theorem FirstGone.append {t t' : Text} (h : FirstGone n t t') (hx : IsLine x t)
    (hclear : ∀ d, IsDeletion n d → ¬d <+: x ++ t) : FirstGone n (x ++ t) (x ++ t') := by
  have hfront := clear_of_isLine hx hclear
  obtain ⟨v, l, r, rfl, rfl, hv, hfresh, hd, hl⟩ := h
  refine ⟨x ++ v, l, r, by simp, by simp, hfront.append hv, ?_, hd, hl⟩
  have hend : x.getLast? = some '\n' := by
    refine hx.2.resolve_right fun hnil => ?_
    obtain ⟨y, j, feed, rfl, -⟩ := hd.eq_append
    simp at hnil
  rcases hfresh with rfl | hfresh
  · exact .inr (by rw [List.append_nil, hend])
  · exact .inr (by rw [List.getLast?_append, hfresh]; rfl)

/-- In a clear text no line gives up the pointer. -/
theorem occursIn_of_clear (hne : n ≠ []) (hn : n.all isWord = true) (h : Clear n v []) :
    (deleteOf n).occursIn v = false := by
  rw [← Bool.not_eq_true, occursIn_iff]
  rintro ⟨w, m, hm⟩
  obtain ⟨hstart, hd⟩ := isDeletion_of_match hne hn hm.2
  obtain ⟨x, j, feed, hx, -⟩ := hd.eq_append
  refine h w _ hm.eq_append (by simp [hx]) ((endsFresh_of_reads hm.1).mp hstart) _ hd ?_
  exact ⟨m.stop.after, (List.append_nil _).symm⟩

end Deletion

/-! ### Declarations -/

section Declaration

variable {m : Match} {c : Cursor}

/-- The type of what a pointer points to. -/
def pointedType : Pattern :=
  seq [.one (CharSet.letter.or (CharSet.of "_")), many isWord, .star .most (seq ["::", word]),
    opt (seq ["<", many (CharSet.except ";\n"), ">"])]

/-- What stands in front of the equals sign of a declaration. -/
def declarator : List Pattern :=
  [.group 1 indent, .group 2 pointedType, space, "*", space, .group 3 word, space]

/-- The equals sign, and what stands behind it up to the arguments. -/
def allocation : List Pattern := [text "=", space, text "new", space1, .again 2, space]

/-- The arguments, if there are any, and the semicolon. -/
def constructorCall : List Pattern :=
  [opt (seq ["(", .group 4 (many (CharSet.except ";\n")), ")"]), space, ";"]

/-- The pattern for declarations, with its parts named. -/
theorem owningNew_eq :
    owningNew = .both lineStart (seq (declarator ++ (allocation ++ constructorCall))) := rfl

/-- What is to be known about a declaration. -/
structure IsDeclaration (m : Match) : Prop where
  begins : ∃ x y, m.text = x ++ '=' :: y ∧ ';' ∉ x
  ends : m.text.getLast? = some ';'
  margin : (m.group 1).all isIndent = true
  type : '\n' ∉ m.group 2
  name_ne : m.group 3 ≠ []
  isName : (m.group 3).all isWord = true
  args : '\n' ∉ m.group 4

/-- The front of a declaration gives its indentation, type and name. -/
theorem exists_of_declarator {u : Text} {e : Groups} (h : Spells (seq declarator) [] u e) :
    ∃ i type n, e = [(3, n), (2, type), (1, i)] ∧ i.all isIndent = true ∧ '\n' ∉ type ∧ n ≠ [] ∧
      n.all isWord = true := by
  simp only [declarator, indent, space, word, many, many1, spells_group_then, spells_run_then,
    spells_text_then, spells_seq_one, spells_run] at h
  obtain ⟨i, _, ⟨hi, -, rfl⟩, w, -, type, e₁, htype, w', -, -, -, -, w'', -, w₁, -, -, -,
    -, w₂, -, n, _, ⟨hn, hlength, rfl⟩, _, -, -, -, rfl⟩ := h
  obtain rfl := htype.groups_eq (by decide)
  exact ⟨i, type, n, rfl, hi, htype.not_mem (by decide), List.ne_nil_of_length_pos hlength, hn⟩

/-- The end of a declaration is its semicolon, with the arguments in front. -/
theorem exists_of_constructorCall {u : Text} {e e' : Groups}
    (h : Spells (seq constructorCall) e u e') :
    u.getLast? = some ';' ∧ ∃ args, '\n' ∉ args ∧ (e' = e ∨ e' = (4, args) :: e) := by
  obtain ⟨call, e₁, hcall, w, rfl, hw⟩ := spells_seq.mp h
  simp only [space, many, spells_run_then, spells_seq_one, spells_text] at hw
  obtain ⟨s, -, -, _, rfl, rfl, rfl⟩ := hw
  refine ⟨by rw [← List.append_assoc]; exact List.getLast?_concat .., ?_⟩
  rcases hcall with hcall | ⟨-, rfl⟩
  · simp only [many, spells_text_then, spells_group_then, spells_run, spells_seq_one, spells_text]
      at hcall
    obtain ⟨_, -, args, _, ⟨hargs, -, rfl⟩, _, -, -, rfl⟩ := hcall
    exact ⟨args, not_mem_of_all hargs (by decide), .inr rfl⟩
  · exact ⟨[], List.not_mem_nil, .inl rfl⟩

/-- What the pattern matches is a declaration. -/
theorem isDeclaration_of_match (h : owningNew.matchAt? c = some m) : IsDeclaration m := by
  rw [owningNew_eq] at h
  obtain ⟨x, _, w, hx, hw, hm⟩ := spells_seq_append.mp (spells_of_match h)
  obtain ⟨y, _, z, hy, hz, rfl⟩ := spells_seq_append.mp hw
  obtain ⟨i, type, n, rfl, hi, htype, hne, hn⟩ := exists_of_declarator hx
  obtain rfl := hy.groups_eq (by decide)
  obtain ⟨hend, args, hargs, hgroups⟩ := exists_of_constructorCall hz
  obtain ⟨y, rfl, -⟩ := spells_text_then.mp hy
  have hgroup : m.group 1 = i ∧ m.group 2 = type ∧ m.group 3 = n ∧ '\n' ∉ m.group 4 := by
    simp only [group_eq]
    rcases hgroups with hgroups | hgroups <;> rw [hgroups]
    · exact ⟨rfl, rfl, rfl, List.not_mem_nil⟩
    · exact ⟨rfl, rfl, rfl, hargs⟩
  obtain ⟨rfl, rfl, rfl, hargs'⟩ := hgroup
  refine ⟨⟨x, y ++ z, hm, hx.not_mem (by decide)⟩, ?_, hi, htype, hne, hn, hargs'⟩
  rw [hm, List.getLast?_append, List.getLast?_append, hend]
  rfl

/-- The rewritten declaration has an equals sign before any semicolon, so that it gives up no
pointer. -/
theorem IsDeclaration.begins_unique (h : IsDeclaration m) :
    ∃ x y, uniquePointer m = x ++ '=' :: y ∧ ';' ∉ x := by
  refine ⟨m.group 1 ++ ("auto " ++ (m.group 3 ++ " ")),
    " std::make_unique<" ++ (m.group 2 ++ (">(" ++ (m.group 4 ++ ");"))), ?_, ?_⟩
  · simp [uniquePointer]
  · simp only [List.mem_append, not_or]
    exact ⟨not_mem_of_all h.margin (by decide), by decide, not_mem_of_all h.isName (by decide),
      by decide⟩

/-- A line stays one when its declaration is rewritten. -/
theorem IsDeclaration.isLine_unique (h : IsDeclaration m) {b r : Text}
    (hline : IsLine (m.text ++ b) r) : IsLine (uniquePointer m ++ b) r := by
  have hunique : '\n' ∉ uniquePointer m := by
    simp only [uniquePointer, List.mem_append, not_or]
    exact ⟨⟨⟨⟨⟨⟨⟨not_mem_of_all h.margin (by decide), by decide⟩,
      not_mem_of_all h.isName (by decide)⟩, by decide⟩, h.type⟩, by decide⟩, h.args⟩, by decide⟩
  obtain ⟨hin, hend⟩ := hline
  by_cases hb : b = []
  · subst hb
    rw [List.append_nil, h.ends] at hend
    refine ⟨fun hmem => hunique (List.dropLast_subset _ (by simpa using hmem)), .inr ?_⟩
    exact hend.resolve_left (by decide)
  · rw [List.dropLast_append_of_ne_nil hb, List.mem_append, not_or] at hin
    rw [List.getLast?_append_of_ne_nil _ hb] at hend
    refine ⟨?_, ?_⟩
    · rw [List.dropLast_append_of_ne_nil hb]
      exact List.not_mem_append hunique hin.2
    · rw [List.getLast?_append_of_ne_nil _ hb]
      exact hend

end Declaration

/-! ### The lines of a text and what the rule has done to them -/

/-- A line of a text, by what it does with a pointer. -/
inductive Line where
  /-- A declaration, and what stands behind it on its line. -/
  | declaration (m : Match) (behind : Text)
  /-- A line that gives up the pointer of a name. -/
  | deletion (name line : Text)
  | other (line : Text)

namespace Line

/-- The line as it is written. -/
def text : Line → Text
  | declaration m behind => m.text ++ behind
  | deletion _ line => line
  | other line => line

/-- The line with its declaration rewritten. -/
def rewritten : Line → Text
  | declaration m behind => uniquePointer m ++ behind
  | deletion _ line => line
  | other line => line

/-- The declaration that the line begins with, if it is one. -/
def declaration? : Line → Option Match
  | declaration m _ => some m
  | _ => none

end Line

/-- The declarations among some lines. -/
def declarations (ls : List Line) : List Match := ls.filterMap Line.declaration?

/-- What happens to a pointer. -/
inductive Event where
  | made
  | gone
  deriving DecidableEq

/-- What a line does to the pointer of a name. -/
def Line.event? (n : Text) : Line → Option Event
  | declaration m _ => if m.group 3 = n then some .made else none
  | deletion n' _ => if n' = n then some .gone else none
  | other _ => none

/-- What happens to the pointers of a name, in order. -/
def events (n : Text) (ls : List Line) : List Event := ls.filterMap (Line.event? n)

section Events

variable {n n' line behind : Text} {m : Match} {ls : List Line}

/-- The first line is the first declaration, if it is one. -/
theorem declarations_cons :
    declarations (.declaration m behind :: ls) = m :: declarations ls := rfl

/-- A declaration makes the pointer of its name. -/
theorem events_declaration : events n (.declaration m behind :: ls) =
    if m.group 3 = n then .made :: events n ls else events n ls := by
  by_cases h : m.group 3 = n <;> simp [events, Line.event?, h]

/-- A line that gives up a pointer does so for its name. -/
theorem events_deletion : events n (.deletion n' line :: ls) =
    if n' = n then .gone :: events n ls else events n ls := by
  by_cases h : n' = n <;> simp [events, Line.event?, h]

/-- Any other line does nothing with a pointer. -/
@[simp] theorem events_other : events n (.other line :: ls) = events n ls := rfl

/-- A declaration changes what happens to the pointers of its name. -/
theorem forall_events_declaration {P : Text → List Event → Prop} :
    (∀ n, P n (events n (.declaration m behind :: ls))) ↔
      P (m.group 3) (.made :: events (m.group 3) ls) ∧ ∀ n, n ≠ m.group 3 → P n (events n ls) := by
  simp only [events_declaration]
  constructor
  · refine fun h => ⟨by simpa using h (m.group 3), fun n hne => ?_⟩
    simpa [Ne.symm hne] using h n
  · rintro ⟨hself, hothers⟩ n
    split
    · next heq =>
      subst heq
      exact hself
    · next hne => exact hothers n (Ne.symm hne)

/-- A line that gives up a pointer changes what happens to the pointers of that name. -/
theorem forall_events_deletion {P : Text → List Event → Prop} :
    (∀ n', P n' (events n' (.deletion n line :: ls))) ↔
      P n (.gone :: events n ls) ∧ ∀ n', n' ≠ n → P n' (events n' ls) := by
  simp only [events_deletion]
  constructor
  · refine fun h => ⟨by simpa using h n, fun n' hne => ?_⟩
    simpa [Ne.symm hne] using h n'
  · rintro ⟨hself, hothers⟩ n'
    split
    · next heq =>
      subst heq
      exact hself
    · next hne => exact hothers n' (Ne.symm hne)

end Events

/-- Numbers of declarations or deletions still to be taken, for each name. -/
abbrev Budget := Text → Nat

namespace Budget

/-- One more for a name. -/
def more (k : Budget) (n : Text) : Budget := Function.update k n (k n + 1)

/-- One less for a name. -/
def less (k : Budget) (n : Text) : Budget := Function.update k n (k n - 1)

variable {k : Budget} {n n' : Text}

/-- One more for the name itself. -/
@[simp] theorem more_self : k.more n n = k n + 1 := Function.update_self ..

/-- One less for the name itself. -/
@[simp] theorem less_self : k.less n n = k n - 1 := Function.update_self ..

/-- Another name keeps its number when one is added. -/
theorem more_of_ne (h : n' ≠ n) : k.more n n' = k n' := Function.update_of_ne h ..

/-- Another name keeps its number when one is taken. -/
theorem less_of_ne (h : n' ≠ n) : k.less n n' = k n' := Function.update_of_ne h ..

/-- To add one and to take it changes nothing. -/
@[simp] theorem less_more : (k.more n).less n = k := by
  simp [less, more]

/-- To take one and to add it changes nothing, if there was one. -/
theorem more_less (h : k n ≠ 0) : (k.less n).more n = k := by
  simp [less, more, Nat.sub_add_cancel (Nat.pos_of_ne_zero h)]

/-- What is added for one name and taken for another may be done in either order. -/
theorem less_more_of_ne (h : n' ≠ n) : (k.more n).less n' = (k.less n').more n := by
  simp [less, more, h, h.symm, Function.update_comm h]

end Budget

/-- The text of some lines, with the first declarations of each name rewritten and the first lines
gone that give it up, as many as `made` and `gone` say. -/
def settled : (made gone : Budget) → List Line → Text
  | _, _, [] => []
  | made, gone, .declaration m behind :: ls =>
    if made (m.group 3) = 0 then m.text ++ behind ++ settled made gone ls
    else uniquePointer m ++ behind ++ settled (made.less (m.group 3)) gone ls
  | made, gone, .deletion n line :: ls =>
    if gone n = 0 then line ++ settled made gone ls else settled made (gone.less n) ls
  | made, gone, .other line :: ls => line ++ settled made gone ls

/-- The texts are lines: each ends with its only line feed, but the last one may do without. -/
def AreLines : List Text → Prop
  | [] => True
  | x :: xs => '\n' ∉ x.dropLast ∧ (x.getLast? = some '\n' ∨ xs = []) ∧ AreLines xs

/-- The line does not begin as one that gives up a pointer, and what begins on it as such a line
does not go on behind its line feed. -/
def IsQuiet (l : Text) : Prop :=
  ∀ n d, IsDeletion n d → ¬d <+: l ∧ (l.getLast? = some '\n' → ¬l <+: d)

/-- Each of the lines is of its kind. -/
structure Arranged (ls : List Line) : Prop where
  areLines : AreLines (ls.map Line.text)
  declares : ∀ m behind, .declaration m behind ∈ ls → ∃ c, owningNew.matchAt? c = some m
  deletes : ∀ n line, .deletion n line ∈ ls → IsDeletion n line
  quiet : ∀ line, .other line ∈ ls → IsQuiet line
  /-- The text of a declaration stands in declarations of its name only, and nowhere once these are
  rewritten. -/
  apart : ∀ m behind, .declaration m behind ∈ ls → ∀ l ∈ ls, ¬m.text <:+: l.rewritten ∧
    (m.text <:+: l.text → l.event? (m.group 3) = some .made)

/-- The lines of a text, with the declarations that the rule finds. -/
structure Layout (t : Text) (ls : List Line) : Prop where
  text_eq : t = ls.flatMap Line.text
  hits_eq : owningNew.hits t = declarations ls
  arranged : Arranged ls

section Settled

variable {ls : List Line} {l : Line} {made gone : Budget} {n x r t : Text} {m : Match}
  {behind : Text}

/-- With nothing to be taken the lines stay as they are. -/
theorem settled_zero : settled (fun _ => 0) (fun _ => 0) ls = ls.flatMap Line.text := by
  induction ls with
  | nil => rfl
  | cons l ls ih => cases l <;> simp [settled, Line.text, ih]

/-- Behind the first line the lines are arranged. -/
theorem Arranged.tail (h : Arranged (l :: ls)) : Arranged ls where
  areLines := h.areLines.2.2
  declares m behind hmem := h.declares m behind (.tail _ hmem)
  deletes n line hmem := h.deletes n line (.tail _ hmem)
  quiet line hmem := h.quiet line (.tail _ hmem)
  apart m behind hmem l' hl' := h.apart m behind (.tail _ hmem) l' (.tail _ hl')

/-- A line is one in front of what becomes of the others. -/
theorem Arranged.isLine_append (h : Arranged (l :: ls)) (ht : ls = [] → t = []) : IsLine l.text t :=
  ⟨h.areLines.1, h.areLines.2.1.imp_right fun hnil => ht (List.map_eq_nil_iff.mp hnil)⟩

/-- A rewritten declaration is a line in front of the rest. -/
theorem Arranged.isLine_unique_append (h : Arranged (.declaration m behind :: ls))
    (ht : ls = [] → t = []) : IsLine (uniquePointer m ++ behind) t := by
  obtain ⟨c, hc⟩ := h.declares m behind (.head _)
  exact (isDeclaration_of_match hc).isLine_unique (h.isLine_append ht)

/-- Where there is no line there is no text. -/
theorem settled_eq_nil (h : ls = []) : settled made gone ls = [] := by
  rw [h]
  rfl

/-- The first line is a line in front of what becomes of the others. -/
theorem Arranged.isLine (h : Arranged (l :: ls)) : IsLine l.text (settled made gone ls) :=
  h.isLine_append settled_eq_nil

/-- The first declaration, rewritten, is a line in front of what becomes of the others. -/
theorem Arranged.isLine_unique (h : Arranged (.declaration m behind :: ls)) :
    IsLine (uniquePointer m ++ behind) (settled made gone ls) :=
  h.isLine_unique_append settled_eq_nil

/-- A line that begins with something else than a `d` gives up no pointer. -/
theorem isQuiet_of_head {i : Text} {a : Char} (hi : i.all isIndent = true)
    (ha : isIndent a = false) (hd : a ≠ 'd') : IsQuiet (i ++ a :: r) := by
  have hfirst (n d u v : Text) (h : IsDeletion n d) : d ++ u ≠ (i ++ a :: r) ++ v := by
    intro heq
    obtain ⟨_, j, feed, rfl, ⟨i', s, s', rfl, hi', -⟩, -⟩ := h.eq_append
    have hindent : isIndent 'd' = false := by decide
    simp only [List.append_assoc, List.cons_append] at heq
    exact hd (eq_of_first hi' hi hindent ha heq).2.1.symm
  intro n d h
  refine ⟨?_, fun _ => ?_⟩
  · rintro ⟨u, hu⟩
    exact hfirst n d u [] h (by rw [hu, List.append_nil])
  · rintro ⟨v, hv⟩
    exact hfirst n d [] v h (by rw [hv, List.append_nil])

/-- No line that gives up a pointer begins on a quiet line. -/
theorem IsQuiet.not_begins (h : IsQuiet x) (hx : IsLine x t) {d : Text} (hd : IsDeletion n d) :
    ¬d <+: x ++ t := by
  intro hprefix
  obtain ⟨hnone, hover⟩ := h n d hd
  rcases hx.2 with hend | rfl
  · rcases List.prefix_or_prefix_of_prefix hprefix (List.prefix_append x t) with h | h
    · exact hnone h
    · exact hover hend h
  · exact hnone (by simpa using hprefix)

/-- A declaration is no line that gives up a pointer, and it is none once it is rewritten. -/
theorem Arranged.not_begins (h : Arranged (.declaration m behind :: ls)) {d : Text}
    (hd : IsDeletion n d) :
    ¬d <+: m.text ++ behind ++ t ∧ ¬d <+: uniquePointer m ++ behind ++ t := by
  obtain ⟨c, hc⟩ := h.declares m behind (.head _)
  have hm := isDeclaration_of_match hc
  obtain ⟨x, y, hxy, hx⟩ := hm.begins
  obtain ⟨x', y', hxy', hx'⟩ := hm.begins_unique
  rw [hxy, hxy']
  simp only [List.append_assoc, List.cons_append]
  exact ⟨hd.not_begins hx, hd.not_begins hx'⟩

/-- The next line that gives up the pointer of a name goes away. -/
theorem firstGone_settled (h : Arranged ls) (hlt : gone n < (events n ls).count .gone) :
    FirstGone n (settled made gone ls) (settled made (gone.more n) ls) := by
  induction ls generalizing made gone with
  | nil => simp [events] at hlt
  | cons l ls ih =>
    cases l with
    | declaration m behind =>
      have hlt' : gone n < (events n ls).count .gone := by
        rw [events_declaration] at hlt
        split at hlt
        · simpa using hlt
        · exact hlt
      simp only [settled]
      split
      · exact (ih h.tail hlt').append h.isLine fun d hd => (h.not_begins hd).1
      · exact (ih h.tail hlt').append h.isLine_unique fun d hd => (h.not_begins hd).2
    | deletion n' line =>
      have hdeletes : IsDeletion n' line := h.deletes n' line (.head _)
      have hline : IsLine line (settled made gone ls) := h.isLine
      simp only [settled]
      by_cases hname : n' = n
      · subst hname
        rw [events_deletion, if_pos rfl, List.count_cons_self] at hlt
        rw [Budget.more_self, if_neg (Nat.succ_ne_zero _), Budget.less_more]
        split
        · -- No line of the name has to be skipped any more: this is the one.
          exact ⟨[], line, _, rfl, rfl, clear_nil, .inl rfl, hdeletes, hline⟩
        · next hgone =>
          have hlt' : gone.less n' n' < (events n' ls).count .gone := by
            rw [Budget.less_self]
            omega
          have hrest := @ih made (gone.less n') h.tail hlt'
          rwa [Budget.more_less hgone] at hrest
      · rw [events_deletion, if_neg hname] at hlt
        rw [Budget.more_of_ne hname]
        split
        · exact (ih h.tail hlt).append hline fun d hd hprefix =>
            hname (hd.name_eq hdeletes hprefix).symm
        · rw [Budget.less_more_of_ne hname]
          exact ih h.tail (by rwa [Budget.less_of_ne (Ne.symm hname)])
    | other line =>
      exact (ih h.tail hlt).append h.isLine fun d hd =>
        (h.quiet line (.head _)).not_begins h.isLine hd

/-- Once all the lines that give up a pointer are gone, there is none. -/
theorem clear_settled (h : Arranged ls) (hle : (events n ls).count .gone ≤ gone n) :
    Clear n (settled made gone ls) [] := by
  have happend {x t : Text} (hx : IsLine x t) (hclear : ∀ d, IsDeletion n d → ¬d <+: x ++ t)
      (ht : Clear n t []) : Clear n (x ++ t) [] :=
    Clear.append (by simpa using clear_of_isLine hx hclear) ht
  induction ls generalizing made gone with
  | nil => exact clear_nil
  | cons l ls ih =>
    cases l with
    | declaration m behind =>
      have hle' : (events n ls).count .gone ≤ gone n := by
        rw [events_declaration] at hle
        split at hle
        · simpa using hle
        · exact hle
      simp only [settled]
      split
      · exact happend h.isLine (fun d hd => (h.not_begins hd).1) (ih h.tail hle')
      · exact happend h.isLine_unique (fun d hd => (h.not_begins hd).2) (ih h.tail hle')
    | deletion n' line =>
      have hdeletes : IsDeletion n' line := h.deletes n' line (.head _)
      have hline : IsLine line (settled made gone ls) := h.isLine
      simp only [settled]
      by_cases hname : n' = n
      · subst hname
        -- All lines of the name are gone, so this one is.
        rw [events_deletion, if_pos rfl, List.count_cons_self] at hle
        rw [if_neg (by omega)]
        exact ih h.tail (by rw [Budget.less_self]; omega)
      · rw [events_deletion, if_neg hname] at hle
        split
        · exact happend hline (fun d hd hprefix => hname (hd.name_eq hdeletes hprefix).symm)
            (ih h.tail hle)
        · exact ih h.tail (by rwa [Budget.less_of_ne (Ne.symm hname)])
    | other line =>
      exact happend h.isLine (fun d hd => (h.quiet line (.head _)).not_begins h.isLine hd)
        (ih h.tail hle)

/-! ### The next declaration -/

/-- What does not begin in the front is looked for behind it. -/
theorem replaceFirst_append {old new : Text}
    (h : ∀ w z, x = w ++ z → z ≠ [] → ¬old <+: z ++ t) :
    Text.replaceFirst old new (x ++ t) = x ++ Text.replaceFirst old new t := by
  induction x with
  | nil => rfl
  | cons a x ih =>
    have hnot := h [] (a :: x) rfl (List.cons_ne_nil a x)
    rw [← List.isPrefixOf_iff_prefix, List.cons_append] at hnot
    rw [List.cons_append, Text.replaceFirst, if_neg hnot, ih, List.cons_append]
    rintro w z rfl hz
    exact h (a :: w) z rfl hz

/-- What begins at the start is replaced there. -/
theorem replaceFirst_self {old new : Text} (hne : old ≠ []) :
    Text.replaceFirst old new (old ++ t) = new ++ t := by
  obtain ⟨a, old, rfl⟩ := List.exists_cons_of_ne_nil hne
  have hself : (a :: old).isPrefixOf (a :: (old ++ t)) = true :=
    List.isPrefixOf_iff_prefix.mpr (List.prefix_append (a :: old) t)
  rw [List.cons_append, Text.replaceFirst, if_pos hself, ← List.cons_append, List.drop_left]

/-- What stands on one line does not begin on a line that it is no part of. -/
theorem IsLine.not_begins (h : IsLine x t) {old : Text} (hfeed : '\n' ∉ old) (hx : ¬old <:+: x) :
    ∀ w z, x = w ++ z → z ≠ [] → ¬old <+: z ++ t := by
  rintro w z rfl hz hprefix
  have hpart : ¬old <+: z := fun h => hx (h.isInfix.trans (List.suffix_append w z).isInfix)
  rcases h.2 with hend | rfl
  · rw [List.getLast?_append_of_ne_nil _ hz] at hend
    rcases List.prefix_or_prefix_of_prefix hprefix (List.prefix_append z t) with h | h
    · exact hpart h
    · exact hfeed (h.subset (List.mem_of_getLast? hend))
  · exact hpart (by simpa using hprefix)

/-- A declaration lies on one line. -/
theorem Arranged.not_mem_feed (h : Arranged ls) (hmem : .declaration m behind ∈ ls) :
    '\n' ∉ m.text := by
  induction ls with
  | nil => cases hmem
  | cons l ls ih =>
    rcases List.mem_cons.mp hmem with rfl | hmem
    · obtain ⟨c, hc⟩ := h.declares m behind (.head _)
      have hend := (isDeclaration_of_match hc).ends
      have hin : '\n' ∉ (m.text ++ behind).dropLast := h.areLines.1
      by_cases hb : behind = []
      · rw [hb, List.append_nil] at hin
        rw [← List.dropLast_append_getLast? _ hend]
        exact List.not_mem_append hin (by decide)
      · rw [List.dropLast_append_of_ne_nil hb, List.mem_append, not_or] at hin
        exact hin.1
    · exact ih h.tail hmem

/-- A declaration is one of the lines. -/
theorem exists_of_mem_declarations (h : m ∈ declarations ls) :
    ∃ behind, .declaration m behind ∈ ls := by
  obtain ⟨l, hl, hm⟩ := List.mem_filterMap.mp h
  cases l with
  | declaration m' behind =>
    cases hm
    exact ⟨behind, hl⟩
  | deletion n line => cases hm
  | other line => cases hm

/-- The text of the next declaration of a name stands nowhere in front of it. -/
theorem replaceFirst_settled (h : Arranged ls) {front back : List Match}
    (hls : declarations ls = front ++ m :: back)
    (hmade : made (m.group 3) = front.countP (fun m' => m'.group 3 = m.group 3)) :
    Text.replaceFirst m.text (uniquePointer m) (settled made gone ls) =
      settled (made.more (m.group 3)) gone ls := by
  induction ls generalizing made gone front with
  | nil => simp [declarations] at hls
  | cons l ls ih =>
    have hm : m ∈ declarations (l :: ls) := by simp [hls]
    obtain ⟨behind, hmem⟩ := exists_of_mem_declarations hm
    have hapart := h.apart m behind hmem l (.head _)
    have hskip {x t : Text} (hx : IsLine x t) (hnone : ¬m.text <:+: x) :
        Text.replaceFirst m.text (uniquePointer m) (x ++ t) =
          x ++ Text.replaceFirst m.text (uniquePointer m) t :=
      replaceFirst_append (hx.not_begins (h.not_mem_feed hmem) hnone)
    cases l with
    | declaration m' behind' =>
      simp only [settled]
      cases front with
      | nil =>
        obtain ⟨rfl, -⟩ := List.cons.inj hls
        obtain ⟨c, hc⟩ := h.declares m' behind' (.head _)
        have hne : m'.text ≠ [] := fun hnil => by
          have hend := (isDeclaration_of_match hc).ends
          rw [hnil] at hend
          cases hend
        rw [List.countP_nil] at hmade
        rw [if_pos hmade, Budget.more_self, if_neg (Nat.succ_ne_zero _), Budget.less_more,
          List.append_assoc, replaceFirst_self hne, List.append_assoc]
      | cons m₀ front =>
        obtain ⟨rfl, hrest⟩ : m' = m₀ ∧ declarations ls = front ++ m :: back := List.cons.inj hls
        rw [List.countP_cons] at hmade
        by_cases hname : m'.group 3 = m.group 3
        · -- It has been rewritten already: the old text is nowhere in the new one.
          rw [decide_eq_true hname, if_pos rfl] at hmade
          have hmade' : made (m'.group 3) ≠ 0 := by rw [hname, hmade]; exact Nat.succ_ne_zero _
          rw [if_neg hmade', hname, Budget.more_self, if_neg (Nat.succ_ne_zero _),
            Budget.less_more, hskip (x := uniquePointer m' ++ behind') h.isLine_unique hapart.1]
          rw [ih h.tail hrest (by rw [Budget.less_self, hmade, Nat.add_sub_cancel]),
            Budget.more_less (hname ▸ hmade')]
        · -- It declares another name, rewritten or not.
          rw [decide_eq_false hname, if_neg Bool.false_ne_true] at hmade
          have hnone : ¬m.text <:+: m'.text ++ behind' := fun hinfix => by
            have hevent := hapart.2 hinfix
            simp [Line.event?, hname] at hevent
          rw [Budget.more_of_ne hname]
          split
          · rw [hskip (x := m'.text ++ behind') h.isLine hnone, ih h.tail hrest hmade]
          · rw [hskip (x := uniquePointer m' ++ behind') h.isLine_unique hapart.1,
              Budget.less_more_of_ne hname,
              ih h.tail hrest (by rwa [Budget.less_of_ne (Ne.symm hname)])]
    | deletion n' line =>
      have hnone : ¬m.text <:+: line := hapart.1
      simp only [settled]
      split
      · rw [hskip (x := line) h.isLine hnone, ih h.tail hls hmade]
      · exact ih h.tail hls hmade
    | other line =>
      have hnone : ¬m.text <:+: line := hapart.1
      simp only [settled]
      rw [hskip (x := line) h.isLine hnone, ih h.tail hls hmade]

/-! ### The whole run -/

/-- The rule takes as many declarations of a name as there are lines that give it up, or all. -/
def pairs (ls : List Line) : Budget := fun n =>
  min ((events n ls).count .made) ((events n ls).count .gone)

/-- The pointer of a name is made as often as there are declarations of it. -/
theorem count_made (ls : List Line) (n : Text) : (events n ls).count .made =
    (declarations ls).countP (fun m => m.group 3 = n) := by
  induction ls with
  | nil => rfl
  | cons l ls ih =>
    cases l with
    | declaration m behind =>
      rw [events_declaration, declarations_cons, List.countP_cons, ← ih]
      by_cases h : m.group 3 = n <;> simp [h]
    | deletion n' line =>
      rw [events_deletion]
      split
      · rw [List.count_cons_of_ne (by decide)]
        exact ih
      · exact ih
    | other line => exact ih

/-- How many have been taken after some of the declarations. -/
def taken (ls : List Line) (front : List Match) : Budget := fun n =>
  min (front.countP (fun m => m.group 3 = n)) ((events n ls).count .gone)

/-- Before any declaration nothing has been taken. -/
theorem taken_nil : taken ls [] = fun _ => 0 := by
  funext n
  simp [taken]

/-- Behind all declarations all pairs have been taken. -/
theorem taken_declarations : taken ls (declarations ls) = pairs ls := by
  funext n
  rw [taken, pairs, count_made]

/-- One more declaration is taken if there is a line left that gives up the pointer. -/
theorem taken_append (front : List Match) : taken ls (front ++ [m]) =
    if taken ls front (m.group 3) < (events (m.group 3) ls).count .gone then
      (taken ls front).more (m.group 3) else taken ls front := by
  funext n
  -- The declarations of a name are one more exactly if it is that of the last one.
  have hcount : (front ++ [m]).countP (fun m => m.group 3 = n) =
      front.countP (fun m => m.group 3 = n) + if m.group 3 = n then 1 else 0 := by
    rw [List.countP_append]
    by_cases h : m.group 3 = n <;> simp [h]
  by_cases h : m.group 3 = n
  · subst h
    rw [if_pos rfl] at hcount
    split
    · next hlt =>
      rw [Budget.more_self]
      simp only [taken, hcount] at hlt ⊢
      omega
    · next hlt =>
      simp only [taken, hcount] at hlt ⊢
      omega
  · rw [if_neg h, Nat.add_zero] at hcount
    have hsame : taken ls (front ++ [m]) n = taken ls front n := by
      rw [taken, taken, hcount]
    split
    · rw [Budget.more_of_ne (Ne.symm h), hsame]
    · exact hsame

/-- One step of the rule: the next declaration is taken with the next line that gives up its
pointer, wherever that stands. -/
theorem makeUnique_settled (h : Arranged ls) {front back : List Match}
    (hls : declarations ls = front ++ m :: back) :
    makeUnique (settled (taken ls front) (taken ls front) ls) m =
      settled (taken ls (front ++ [m])) (taken ls (front ++ [m])) ls := by
  rw [taken_append]
  by_cases hlt : taken ls front (m.group 3) < (events (m.group 3) ls).count .gone
  · have hmade : taken ls front (m.group 3) = front.countP (fun m' => m'.group 3 = m.group 3) := by
      simp only [taken] at hlt ⊢
      omega
    -- The search sees the text as it is, the removal that with the declaration rewritten.
    have hfirst (made : Budget) : FirstGone (m.group 3) (settled made (taken ls front) ls)
        (settled made ((taken ls front).more (m.group 3)) ls) := firstGone_settled h hlt
    obtain ⟨hoccurs, -⟩ := (hfirst (taken ls front)).replaceFirst_eq
    obtain ⟨-, hgone⟩ := (hfirst ((taken ls front).more (m.group 3))).replaceFirst_eq
    simp only [makeUnique]
    rw [if_pos hoccurs, replaceFirst_settled h hls hmade, hgone, if_pos hlt]
  · have hdeclared : m ∈ declarations ls := by simp [hls]
    obtain ⟨behind, hmem⟩ := exists_of_mem_declarations hdeclared
    obtain ⟨c, hc⟩ := h.declares m behind hmem
    have hm := isDeclaration_of_match hc
    have hclear : Clear (m.group 3) (settled (taken ls front) (taken ls front) ls) [] :=
      clear_settled h (Nat.le_of_not_lt hlt)
    simp only [makeUnique]
    rw [occursIn_of_clear hm.name_ne hm.isName hclear, if_neg Bool.false_ne_true, if_neg hlt]

/-- What the rule makes of a text: the first declarations of each name are taken, and the first
lines that give it up, whichever of them belong together. -/
theorem makePointersUnique_eq (h : Layout t ls) :
    makePointersUnique t = settled (pairs ls) (pairs ls) ls := by
  have hrun (back front : List Match) (hfront : declarations ls = front ++ back) :
      back.foldl makeUnique (settled (taken ls front) (taken ls front) ls) =
        settled (pairs ls) (pairs ls) ls := by
    induction back generalizing front with
    | nil =>
      rw [List.append_nil] at hfront
      rw [List.foldl_nil, ← hfront, taken_declarations]
    | cons m back ih =>
      rw [List.foldl_cons, makeUnique_settled h.arranged hfront]
      exact ih (front ++ [m]) (by simpa using hfront)
  have hstart := hrun (declarations ls) [] rfl
  rwa [taken_nil, settled_zero, ← h.text_eq, ← h.hits_eq] at hstart

end Settled

end CodeTidy.Cpp
