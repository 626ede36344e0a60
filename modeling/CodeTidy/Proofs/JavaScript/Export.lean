import CodeTidy.JavaScript.Declaration
import CodeTidy.Proofs.JavaScript.Name
import CodeTidy.Proofs.Pattern.Places

/-!
# `CodeTidy.Proofs.JavaScript.Export`: functions that are exported as the default

A named function becomes a constant, but `export default` may not stand in front of a constant. The
rule leaves a function alone if the word `default` and one space stand directly in front of it. With
other white space, or with `async` between the two, the function is found all the same, in the last
case one word later. The theorems:

* `exists_of_functionDeclaration`: what a match consists of.
* `NamedFunction.append_front_inj`, `NamedFunction.back_append_inj`: where a function begins and
  ends.
* `eq_of_runs_over`: a match that runs over the beginning of a function is that function, so no
  match in front of a function keeps it from being found.
* `not_isRewritten_iff`: which functions that are exported as the default stay functions.
-/

set_option autoImplicit false

namespace CodeTidy.JavaScript

open Pattern Text

/-! ### Functions that are exported as the default -/

/-- What stands behind the parameters: nothing, or a colon and a type. -/
def IsTypeMark (y : Text) : Prop :=
  y = [] ∨ ∃ s s' x, y = s ++ ':' :: (s' ++ x) ∧ s.all isBlank = true ∧ s'.all isBlank = true ∧
    x.all (CharSet.except "\x7b\x7d;=()") = true ∧ x ≠ []

/-- A named function up to the brace that opens its body. -/
structure NamedFunction where
  /-- The white space in front of the name. -/
  gap : Text
  name : Text
  /-- The white space in front of the parameters. -/
  margin : Text
  params : Text
  /-- The type of the result, if it is given. -/
  mark : Text
  /-- The white space in front of the brace. -/
  space : Text
  isBlank_gap : gap.all isBlank = true
  gap_ne_nil : gap ≠ []
  isName_name : isName name = true
  isBlank_margin : margin.all isBlank = true
  isFlat_params : params.all (CharSet.except "()") = true
  isTypeMark_mark : IsTypeMark mark
  isBlank_space : space.all isBlank = true

namespace NamedFunction

/-- The function up to the parenthesis that opens its parameters. -/
def front (d : NamedFunction) : Text := "function" ++ (d.gap ++ (d.name ++ d.margin))

/-- The function from its parameters on. -/
def back (d : NamedFunction) : Text :=
  d.params ++ (")" ++ (d.mark ++ (d.space ++ "\x7b")))

/-- The function as it is written. -/
def text (d : NamedFunction) : Text := d.front ++ '(' :: d.back

end NamedFunction

/-- A word that makes a function asynchronous, and the white space behind it. -/
def IsAsync (a : Text) : Prop := ∃ s, a = "async" ++ s ∧ s.all isBlank = true ∧ s ≠ []

/-- What stands in front of a function that is exported as the default. -/
structure DefaultExport where
  /-- The white space between the two words. -/
  gap : Text
  /-- The white space behind them. -/
  space : Text
  /-- The word `async` with the white space behind it, if the function is asynchronous. -/
  async? : Option Text
  isBlank_gap : gap.all isBlank = true
  gap_ne_nil : gap ≠ []
  isBlank_space : space.all isBlank = true
  space_ne_nil : space ≠ []
  isAsync_async : ∀ a ∈ async?, IsAsync a

namespace DefaultExport

/-- The two words with the white space behind each. -/
def words (x : DefaultExport) : Text := "export" ++ (x.gap ++ ("default" ++ x.space))

/-- All that stands in front of the function. -/
def text (x : DefaultExport) : Text := x.words ++ x.async?.getD []

end DefaultExport

/-- The function in front of `rest` becomes a constant. -/
def IsRewritten (t rest : Text) : Prop :=
  ∃ m ∈ functionDeclaration.hits t, m.stop.after = rest ∧ "const ".toList <+: toArrow m

/-! ### What a match consists of -/

/-- The parts of the pattern behind its conditions. -/
def functionHead : List Pattern :=
  [opt (.group 1 (seq ["async", space1])), "function", space1, .group 2 name, space, "(",
    .group 3 (many (CharSet.except "()")), ")",
    opt (.group 4 (seq [space, ":", space, few1 (CharSet.except "\x7b\x7d;=()")])), space, "\x7b"]

/-- The pattern for names spells names. -/
theorem spells_name_iff {e e' : Groups} {n : Text} :
    Spells name e n e' ↔ isName n = true ∧ e' = e := by
  constructor
  · rintro ⟨v, _, ⟨a, ha, rfl, rfl⟩, w, rfl, hw, -, rfl⟩
    exact ⟨by rw [List.singleton_append, isName, ha, hw, Bool.and_self], rfl⟩
  · rintro ⟨hn, rfl⟩
    obtain ⟨a, w, rfl, ha, hw⟩ := exists_cons_of_isName hn
    exact ⟨[a], _, ⟨a, ha, rfl, rfl⟩, w, rfl, hw, Nat.zero_le _, rfl⟩

/-- What the pattern for a type spells is one. -/
theorem isTypeMark_of_spells {e e' : Groups} {y : Text}
    (h : Spells (seq [space, ":", space, few1 (CharSet.except "\x7b\x7d;=()")]) e y e') :
    IsTypeMark y ∧ e' = e := by
  obtain ⟨s, hs, -, _, rfl, h₁⟩ := spells_run_then.mp h
  obtain ⟨_, rfl, h₂⟩ := spells_text_then.mp h₁
  obtain ⟨s', hs', -, x, rfl, hx, hne, rfl⟩ := spells_run_then.mp h₂
  exact ⟨.inr ⟨s, s', x, rfl, hs, hs', hx, List.ne_nil_of_length_pos hne⟩, rfl⟩

/-- The text up to the opening parenthesis, as one. -/
theorem append_front (k s n s' r : Text) :
    k ++ (s ++ (n ++ (s' ++ '(' :: r))) = (k ++ (s ++ (n ++ s'))) ++ '(' :: r := by
  rw [List.append_assoc, List.append_assoc, List.append_assoc]

/-- What the head of the pattern spells is a named function, perhaps with the word for an
asynchronous one in front; the second group is the name. -/
theorem exists_of_spells_functionHead {u : Text} {e : Groups}
    (h : Spells (seq functionHead) [] u e) :
    ∃ a d, (a = [] ∨ IsAsync a) ∧ u = a ++ NamedFunction.text d ∧ e.lookup 2 = some d.name := by
  -- The parts one after the other. Of the groups only the second one, the name, matters.
  obtain ⟨a, e₁, hopt, w, rfl, h₀⟩ := h
  have ha : a = [] ∨ IsAsync a := by
    rcases hopt with ⟨e₀, hasync, -⟩ | ⟨rfl, -⟩
    · obtain ⟨s, rfl, hs, hne, -⟩ := spells_text_then.mp hasync
      exact .inr ⟨s, rfl, hs, List.ne_nil_of_length_pos hne⟩
    · exact .inl rfl
  obtain ⟨_, rfl, h₁⟩ := spells_text_then.mp h₀
  obtain ⟨gap, hgap, hne, _, rfl, h₂⟩ := spells_run_then.mp h₁
  obtain ⟨n, _, hname, _, rfl, h₃⟩ := spells_group_then.mp h₂
  obtain ⟨hn, rfl⟩ := spells_name_iff.mp hname
  obtain ⟨margin, hmargin, -, _, rfl, h₄⟩ := spells_run_then.mp h₃
  obtain ⟨_, rfl, h₅⟩ := spells_text_then.mp h₄
  obtain ⟨params, _, ⟨hparams, -, rfl⟩, _, rfl, h₆⟩ := spells_group_then.mp h₅
  obtain ⟨_, rfl, h₇⟩ := spells_text_then.mp h₆
  obtain ⟨mark, e₂, hopt', _, rfl, h₈⟩ := spells_seq.mp h₇
  obtain ⟨s, hs, -, _, rfl, h₉⟩ := spells_run_then.mp h₈
  obtain ⟨rfl, rfl⟩ := spells_text.mp h₉
  obtain ⟨hmark, hlookup⟩ : IsTypeMark mark ∧ e.lookup 2 = some n := by
    rcases hopt' with ⟨e₃, htype, rfl⟩ | ⟨rfl, rfl⟩
    · obtain ⟨hmark, rfl⟩ := isTypeMark_of_spells htype
      exact ⟨hmark, rfl⟩
    · exact ⟨.inl rfl, rfl⟩
  exact ⟨a, ⟨gap, n, margin, params, mark, s, hgap, List.ne_nil_of_length_pos hne, hn, hmargin,
    hparams, hmark, hs⟩, ha, congrArg (a ++ ·) (append_front ..), hlookup⟩

/-- The head of the pattern spells every named function. -/
theorem exists_spells_functionHead {a : Text} (ha : a = [] ∨ IsAsync a) (d : NamedFunction) :
    ∃ e, Spells (seq functionHead) [] (a ++ d.text) e := by
  -- The two parts that may be missing come first, then the others from the last one on.
  obtain ⟨e₁, hasync⟩ : ∃ e₁, Spells (opt (.group 1 (seq ["async", space1]))) [] a e₁ := by
    rcases ha with rfl | ⟨s, rfl, hs, hne⟩
    · exact ⟨[], .inr ⟨rfl, rfl⟩⟩
    · exact ⟨_, .inl ⟨[], spells_text_then.mpr ⟨s, rfl, hs, List.length_pos_of_ne_nil hne, rfl⟩,
        rfl⟩⟩
  obtain ⟨e₂, hmark⟩ : ∃ e₂, Spells
      (opt (.group 4 (seq [space, ":", space, few1 (CharSet.except "\x7b\x7d;=()")])))
      ((3, d.params) :: (2, d.name) :: e₁) d.mark e₂ := by
    rcases d.isTypeMark_mark with hnil | ⟨s, s', x, hy, hs, hs', hx, hne⟩
    · exact ⟨_, .inr ⟨hnil, rfl⟩⟩
    · refine ⟨(4, d.mark) :: (3, d.params) :: (2, d.name) :: e₁, .inl ⟨_, ?_, rfl⟩⟩
      rw [hy]
      exact spells_run_then.mpr ⟨s, hs, Nat.zero_le _, _, rfl, spells_text_then.mpr ⟨_, rfl,
        spells_run_then.mpr ⟨s', hs', Nat.zero_le _, x, rfl, hx,
          List.length_pos_of_ne_nil hne, rfl⟩⟩⟩
  have hback : Spells (seq [.group 3 (many (CharSet.except "()")), ")",
      opt (.group 4 (seq [space, ":", space, few1 (CharSet.except "\x7b\x7d;=()")])), space,
      "\x7b"]) ((2, d.name) :: e₁) d.back e₂ :=
    spells_group_then.mpr ⟨d.params, _, ⟨d.isFlat_params, Nat.zero_le _, rfl⟩, _, rfl,
      spells_text_then.mpr ⟨_, rfl, spells_seq.mpr ⟨d.mark, _, hmark, _, rfl,
        spells_run_then.mpr ⟨d.space, d.isBlank_space, Nat.zero_le _, _, rfl,
          spells_text.mpr ⟨rfl, rfl⟩⟩⟩⟩⟩
  have hfront : Spells (seq functionHead) [] (a ++ ("function".toList ++ (d.gap ++ (d.name ++
      (d.margin ++ '(' :: d.back))))) e₂ :=
    spells_seq.mpr ⟨a, e₁, hasync, _, rfl, spells_text_then.mpr ⟨_, rfl,
      spells_run_then.mpr ⟨d.gap, d.isBlank_gap, List.length_pos_of_ne_nil d.gap_ne_nil, _, rfl,
        spells_group_then.mpr ⟨d.name, e₁, spells_name_iff.mpr ⟨d.isName_name, rfl⟩, _, rfl,
          spells_run_then.mpr ⟨d.margin, d.isBlank_margin, Nat.zero_le _, _, rfl,
            spells_text_then.mpr ⟨_, rfl, hback⟩⟩⟩⟩⟩⟩
  rw [append_front] at hfront
  exact ⟨e₂, hfront⟩

/-- The pattern for functions, with its conditions and its head. -/
theorem functionDeclaration_eq : functionDeclaration =
    seq ([.place (fun c => !c.followsText "default "), standsAlone] ++ functionHead) := rfl

/-- Whether the cursor stands behind a word is said by the text in front of it. -/
theorem followsText_iff {t v w : Text} {c : Cursor} (h : (Cursor.start t).Reads v c) :
    c.followsText w = true ↔ w <:+ v := by
  rw [Cursor.followsText, h.before_eq, Cursor.start, List.append_nil, List.isPrefixOf_iff_prefix,
    List.reverse_prefix]

/-- A match is a named function, which `async` may stand in front of. -/
theorem exists_of_functionDeclaration {t v : Text} {m : Match}
    (hm : MatchesBehind functionDeclaration t v m) :
    ∃ a d, (a = [] ∨ IsAsync a) ∧ m.text = a ++ NamedFunction.text d ∧ m.group 2 = d.name ∧
      ¬"default ".toList <:+ v ∧
      (v ++ (a ++ d.front)) ++ '(' :: (d.back ++ m.stop.after) = t := by
  have htakes := hm.takes
  rw [functionDeclaration_eq, takes_seq_append] at htakes
  obtain ⟨c, caps, ⟨_, _, ⟨hdefault, rfl, rfl⟩, -, rfl, rfl⟩, hhead⟩ := htakes
  obtain ⟨u, hreads, hspells⟩ := hhead.spells
  obtain ⟨a, d, ha, rfl, hname⟩ := exists_of_spells_functionHead hspells
  have htext : m.text = a ++ d.text := Match.text_of_reads hreads
  refine ⟨a, d, ha, htext, ?_, ?_, ?_⟩
  · rw [group_eq, hname]
    rfl
  · rw [Bool.not_eq_true'] at hdefault
    rw [← followsText_iff hm.1, hdefault]
    exact Bool.false_ne_true
  · have hsplit := hm.eq_append
    rw [htext] at hsplit
    simpa [NamedFunction.text] using hsplit.symm

/-- A named function is found behind anything but a name part, a dot or `default` and a space. -/
theorem exists_matchesBehind_function {a v rest : Text} (ha : a = [] ∨ IsAsync a)
    (d : NamedFunction) (hdefault : ¬"default ".toList <:+ v)
    (halone : v.getLast?.any (isNamePart.or (CharSet.of ".")) = false) :
    ∃ m, MatchesBehind functionDeclaration (v ++ (a ++ (d.text ++ rest))) v m := by
  generalize ht : v ++ (a ++ (d.text ++ rest)) = t
  have hsplit : t = v ++ ((a ++ d.text) ++ rest) := by rw [← ht, List.append_assoc a]
  obtain ⟨c, hv, hc⟩ := Cursor.exists_reads (c := Cursor.start t) hsplit
  obtain ⟨c', hreads, -⟩ := Cursor.exists_reads hc
  obtain ⟨e, hspells⟩ : ∃ e, Spells (seq functionHead) (textsOf []) (a ++ d.text) e :=
    exists_spells_functionHead ha d
  obtain ⟨caps, hhead, -⟩ := exists_takes_of_spells  rfl hreads hspells
  have hplace : (!c.followsText "default ") = true := by
    rw [Bool.not_eq_true', ← Bool.not_eq_true, followsText_iff hv]
    exact hdefault
  have htakes : Takes functionDeclaration c [] c' caps := by
    rw [functionDeclaration_eq, takes_seq_append]
    exact ⟨c, [], ⟨c, [], ⟨hplace, rfl, rfl⟩, takes_notAfter_iff.mpr
      ⟨(hv.follows_start _).trans halone, rfl, rfl⟩⟩, hhead⟩
  -- There may be several ways to match; the search takes one of them.
  cases hm : functionDeclaration.matchAt? c with
  | none => exact absurd htakes (matchAt?_eq_none_iff.mp hm c' caps)
  | some m =>
    obtain ⟨rfl, -⟩ := takes_of_matchAt? hm
    exact ⟨m, hv, hm⟩

/-! ### Where a function begins and ends -/

/-- The last character of the end is that of the whole. -/
theorem getLast?_append_of {k : Text} {a : Char} (hk : k.getLast? = some a) (z : Text) :
    (z ++ k).getLast? = some a := by
  rw [List.getLast?_append, hk]
  rfl

/-- Behind words that end differently there may stand any white space. -/
theorem eq_of_append_blanks {z z' k k' s s' : Text} {a b : Char} (hk : k.getLast? = some a)
    (hk' : k'.getLast? = some b) (ha : isBlank a = false) (hb : isBlank b = false)
    (hs : s.all isBlank = true) (hs' : s'.all isBlank = true)
    (h : z ++ (k ++ s) = z' ++ (k' ++ s')) : z ++ k = z' ++ k' ∧ s = s' ∧ a = b := by
  rw [← List.append_assoc, ← List.append_assoc] at h
  have hlast := getLast?_append_of hk z
  have hlast' := getLast?_append_of hk' z'
  obtain ⟨hsame, rfl⟩ :=
    append_inj_of_all_right hs hs' (by simp [hlast, ha]) (by simp [hlast', hb]) h
  rw [hsame, hlast'] at hlast
  exact ⟨hsame, rfl, (Option.some.inj hlast).symm⟩

/-- The word for an asynchronous function is told from the text in front of it. -/
theorem append_inj_of_isAsync {z z' a a' : Text} (ha : IsAsync a) (ha' : IsAsync a')
    (h : z ++ a = z' ++ a') : z = z' ∧ a = a' := by
  obtain ⟨s, rfl, hs, -⟩ := ha
  obtain ⟨s', rfl, hs', -⟩ := ha'
  obtain ⟨hsame, rfl, -⟩ := eq_of_append_blanks (a := 'c') (b := 'c') rfl rfl rfl rfl hs hs' h
  exact ⟨List.append_cancel_right hsame, rfl⟩

/-- White space behind one word is none behind another. -/
theorem append_async_ne {z z' a s : Text} (ha : IsAsync a) (hs : s.all isBlank = true) :
    z ++ a ≠ z' ++ ("default" ++ s) := by
  obtain ⟨s', rfl, hs', -⟩ := ha
  intro h
  obtain ⟨-, -, hne⟩ := eq_of_append_blanks (a := 'c') (b := 't') rfl rfl rfl rfl hs' hs h
  cases hne

/-- A text that is not empty has a last character, of the same kind as all. -/
theorem exists_getLast? {p : Char → Bool} {u : Text} (hu : u.all p = true) (hne : u ≠ []) :
    ∃ a, u.getLast? = some a ∧ p a = true :=
  ⟨u.getLast hne, List.getLast?_eq_some_getLast hne,
    List.all_eq_true.mp hu _ (List.getLast_mem hne)⟩

/-- A name between white space, behind a word. -/
theorem append_name_inj {z z' k s n s₁ s' n' s₁' : Text} {a : Char} (hk : k.getLast? = some a)
    (ha : isBlank a = false) (hs : s.all isBlank = true) (hne : s ≠ [])
    (hs' : s'.all isBlank = true) (hne' : s' ≠ []) (hn : isName n = true) (hn' : isName n' = true)
    (hs₁ : s₁.all isBlank = true) (hs₁' : s₁'.all isBlank = true)
    (h : z ++ (k ++ (s ++ (n ++ s₁))) = z' ++ (k ++ (s' ++ (n' ++ s₁')))) : z = z' ∧ n = n' := by
  have hparts : ∀ {n}, isName n = true → n ≠ [] := by
    rintro n hn rfl
    cases hn
  obtain ⟨b, hb, hpart⟩ := exists_getLast? (all_isNamePart_of_isName hn) (hparts hn)
  obtain ⟨b', hb', hpart'⟩ := exists_getLast? (all_isNamePart_of_isName hn') (hparts hn')
  obtain ⟨c, hc, hblank⟩ := exists_getLast? hs hne
  obtain ⟨c', hc', hblank'⟩ := exists_getLast? hs' hne'
  have hleft : z ++ k ++ s ++ n ++ s₁ = z' ++ k ++ s' ++ n' ++ s₁' := by simpa using h
  -- From the right: the margin, the name, and the white space in front of it.
  obtain ⟨hname, -⟩ := append_inj_of_all_right hs₁ hs₁'
    (by simp [getLast?_append_of hb, isBlank_of_isNamePart hpart])
    (by simp [getLast?_append_of hb', isBlank_of_isNamePart hpart']) hleft
  obtain ⟨hgap, rfl⟩ := append_inj_of_all_right (all_isNamePart_of_isName hn)
    (all_isNamePart_of_isName hn') (by simp [getLast?_append_of hc, isNamePart_of_isBlank hblank])
    (by simp [getLast?_append_of hc', isNamePart_of_isBlank hblank']) hname
  obtain ⟨hword, -⟩ := append_inj_of_all_right hs hs' (by simp [getLast?_append_of hk, ha])
    (by simp [getLast?_append_of hk, ha]) hgap
  exact ⟨List.append_cancel_right hword, rfl⟩

/-- Brackets are neither white space nor parts of names. -/
theorem brackets_spec :
    ∀ a ∈ "()\x7b\x7d".toList, isBlank a = false ∧ isNamePart a = false := by
  decide

namespace NamedFunction

variable {d d' : NamedFunction} {z z' r r' : Text}

/-- A function is told from the text in front of it, so its name is. -/
theorem append_front_inj (h : z ++ d.front = z' ++ d'.front) : z = z' ∧ d.name = d'.name :=
  append_name_inj (a := 'n') rfl rfl d.isBlank_gap d.gap_ne_nil d'.isBlank_gap d'.gap_ne_nil
    d.isName_name d'.isName_name d.isBlank_margin d'.isBlank_margin h

/-- In front of the parameters there is no bracket. -/
theorem not_mem_front (d : NamedFunction) {a : Char} (ha : a ∈ "()\x7b\x7d".toList) :
    a ∉ d.front := by
  obtain ⟨hblank, hpart⟩ := brackets_spec a ha
  have hword : "function".toList.all isNamePart = true := by decide
  exact List.not_mem_append (not_mem_of_all hword hpart) <|
    List.not_mem_append (not_mem_of_all d.isBlank_gap hblank) <|
    List.not_mem_append (not_mem_of_all (all_isNamePart_of_isName d.isName_name) hpart)
      (not_mem_of_all d.isBlank_margin hblank)

/-- A type holds no parentheses or braces. -/
theorem not_mem_of_isTypeMark {y : Text} (hy : IsTypeMark y) {a : Char}
    (ha : a ∈ "()\x7b\x7d".toList) : a ∉ y := by
  have hall : ∀ a ∈ "()\x7b\x7d".toList,
      a ≠ ':' ∧ CharSet.except "\x7b\x7d;=()" a = false := by decide
  obtain ⟨hcolon, htype⟩ := hall a ha
  have hblank := (brackets_spec a ha).1
  rcases hy with rfl | ⟨s, s', x, rfl, hs, hs', hx, -⟩
  · exact List.not_mem_nil
  · exact List.not_mem_append (not_mem_of_all hs hblank) <|
      List.not_mem_cons_of_ne_of_not_mem hcolon <|
      List.not_mem_append (not_mem_of_all hs' hblank) (not_mem_of_all hx htype)

/-- What comes before the brace has none of its kind and no second parenthesis. -/
theorem exists_back (d : NamedFunction) : ∃ y, d.back = d.params ++ ')' :: (y ++ ['\x7b']) ∧
    '(' ∉ d.params ++ ')' :: y ∧ '\x7b' ∉ y := by
  have hparams : '(' ∉ d.params := not_mem_of_all d.isFlat_params (by decide)
  have hmark : ∀ a ∈ "()\x7b\x7d".toList, a ∉ d.mark ++ d.space := fun a ha =>
    List.not_mem_append (not_mem_of_isTypeMark d.isTypeMark_mark ha)
      (not_mem_of_all d.isBlank_space (brackets_spec a ha).1)
  refine ⟨d.mark ++ d.space, by rw [List.append_assoc]; rfl, ?_, hmark '\x7b' (by decide)⟩
  exact List.not_mem_append hparams
    (List.not_mem_cons_of_ne_of_not_mem (by decide) (hmark '(' (by decide)))

/-- Behind the opening parenthesis a function has no other one up to its body. -/
theorem all_back (d : NamedFunction) : d.back.all (fun a => a != '(') = true := by
  obtain ⟨y, hback, hy, -⟩ := d.exists_back
  have hmem : '(' ∉ (d.params ++ ')' :: y) ++ ['\x7b'] := List.not_mem_append hy (by decide)
  rw [hback, List.all_eq_true]
  intro a ha
  exact bne_iff_ne.mpr (ne_of_mem_of_not_mem (by simpa using ha) hmem)

/-- The parts of a function from its parameters on are as long as they can be. -/
theorem back_append_inj (h : d.back ++ r = d'.back ++ r') : r = r' := by
  obtain ⟨y, hback, -, hy⟩ := d.exists_back
  obtain ⟨y', hback', -, hy'⟩ := d'.exists_back
  have hsplit : d.params ++ ')' :: (y ++ '\x7b' :: r) =
      d'.params ++ ')' :: (y' ++ '\x7b' :: r') := by
    rw [hback, hback'] at h
    simpa using h
  obtain ⟨-, hclose⟩ := append_inj_of_all d.isFlat_params d'.isFlat_params rfl rfl hsplit
  have hplain : ∀ {y : Text}, '\x7b' ∉ y → y.all (fun a => a != '\x7b') = true := fun hy =>
    List.all_eq_true.mpr fun a ha => bne_iff_ne.mpr (ne_of_mem_of_not_mem ha hy)
  obtain ⟨-, hbrace⟩ :=
    append_inj_of_all (hplain hy) (hplain hy') rfl rfl (List.cons.inj hclose).2
  exact (List.cons.inj hbrace).2

end NamedFunction

/-! ### A match that runs over the beginning of a function -/

/-- Of two stretches up to a parenthesis, one of which runs into the other, the parentheses are the
same if the first ends with a brace that the second cannot hold. -/
theorem append_eq_of_runs_over {v v' x q y r z : Text} (hx : '(' ∉ x) (hy : '(' ∉ y)
    (hq : '\x7b' ∉ q) (hle : v'.length ≤ v.length)
    (hover : v.length < (v' ++ (x ++ '(' :: (y ++ ['\x7b']))).length)
    (h : v' ++ (x ++ '(' :: (y ++ '\x7b' :: r)) = v ++ (q ++ '(' :: z)) : v' ++ x = v ++ q := by
  rw [← List.append_assoc, ← List.append_assoc] at h
  rcases append_eq_append_cons h with ⟨c, hc, -⟩ | ⟨c, hc, hrest⟩
  · -- The second parenthesis would stand in `x`.
    rcases append_eq_append_cons hc with ⟨c', hv', -⟩ | ⟨c', -, rfl⟩
    · rw [hv'] at hle
      simp only [List.length_append, List.length_cons] at hle
      omega
    · exact absurd (List.mem_append_right c' List.mem_cons_self) hx
  · cases c with
    | nil => rw [hc, List.append_nil]
    | cons b c =>
      obtain ⟨rfl, hbehind⟩ := List.cons.inj hrest
      obtain ⟨w, rfl, hw⟩ := exists_of_append_eq hy hbehind
      -- The brace would stand in front of the second parenthesis, and behind `v`.
      cases w with
      | nil => cases hw
      | cons d w =>
        obtain ⟨rfl, -⟩ := List.cons.inj hw
        have hbrace : v ++ q = (v' ++ x ++ '(' :: y) ++ '\x7b' :: w := by rw [hc]; simp
        rcases append_eq_append_cons hbrace with ⟨c', hv, -⟩ | ⟨c', -, rfl⟩
        · rw [hv] at hover
          simp only [List.length_append, List.length_cons, List.length_nil] at hover
          omega
        · exact absurd (List.mem_append_right c' List.mem_cons_self) hq

/-- The word for an asynchronous function holds no parentheses or braces. -/
theorem not_mem_of_isAsync {x : Text} (hx : x = [] ∨ IsAsync x) {a : Char}
    (ha : a ∈ "()\x7b\x7d".toList) : a ∉ x := by
  obtain ⟨hblank, hpart⟩ := brackets_spec a ha
  rcases hx with rfl | ⟨s, rfl, hs, -⟩
  · exact List.not_mem_nil
  · have hword : "async".toList.all isNamePart = true := by decide
    exact List.not_mem_append (not_mem_of_all hword hpart) (not_mem_of_all hs hblank)

/-- A match that runs over the beginning of a function is the match of that function. -/
theorem eq_of_runs_over {v v' a rest : Text} {d : NamedFunction} {m : Match}
    (ha : a = [] ∨ IsAsync a)
    (hm : MatchesBehind functionDeclaration (v ++ (a ++ (d.text ++ rest))) v' m)
    (hle : v'.length ≤ v.length) (hover : v.length < v'.length + m.text.length) :
    ∃ a', (a' = [] ∨ IsAsync a') ∧ v' ++ a' = v ++ a ∧ m.group 2 = d.name ∧
      m.stop.after = rest ∧ ¬"default ".toList <:+ v' := by
  obtain ⟨a', d', ha', htext, hname, hdefault, hsplit⟩ := exists_of_functionDeclaration hm
  have hsame : (v' ++ (a' ++ d'.front)) ++ '(' :: (d'.back ++ m.stop.after) =
      (v ++ (a ++ d.front)) ++ '(' :: (d.back ++ rest) := by
    rw [hsplit, NamedFunction.text]
    simp
  -- The first parenthesis behind the beginning of both is the same one.
  obtain ⟨y, hback, hy, -⟩ := d'.exists_back
  have hfront : v' ++ (a' ++ d'.front) = v ++ (a ++ d.front) := by
    refine append_eq_of_runs_over (y := d'.params ++ ')' :: y) (r := m.stop.after)
      (z := d.back ++ rest) ?_ hy ?_ hle ?_ ?_
    · exact List.not_mem_append (not_mem_of_isAsync ha' (by decide)) (d'.not_mem_front (by decide))
    · exact List.not_mem_append (not_mem_of_isAsync ha (by decide)) (d.not_mem_front (by decide))
    · simpa [htext, NamedFunction.text, hback] using hover
    · simpa [hback] using hsame
  have hrest : m.stop.after = rest := by
    rw [hfront] at hsame
    exact NamedFunction.back_append_inj (List.cons.inj (List.append_cancel_left hsame)).2
  rw [← List.append_assoc, ← List.append_assoc] at hfront
  obtain ⟨hbegin, hsamename⟩ := NamedFunction.append_front_inj hfront
  exact ⟨a', ha', hbegin, hname.trans hsamename, hrest, hdefault⟩

/-- A match that ends where a function does is the match of that function. -/
theorem eq_of_stop {v v' : Text} {d : NamedFunction} {m : Match}
    (hm : MatchesBehind functionDeclaration (v ++ (d.text ++ m.stop.after)) v' m) :
    ∃ a' d', (a' = [] ∨ IsAsync a') ∧ m.text = a' ++ NamedFunction.text d' ∧ v' ++ a' = v ∧
      m.group 2 = d.name ∧ ¬"default ".toList <:+ v' := by
  obtain ⟨a', d', ha', htext, hname, hdefault, hsplit⟩ := exists_of_functionDeclaration hm
  have hsame : v' ++ (a' ++ d'.front) ++ '(' :: d'.back = v ++ d.front ++ '(' :: d.back := by
    have hrest : v' ++ (a' ++ d'.front) ++ '(' :: d'.back ++ m.stop.after =
        v ++ d.front ++ '(' :: d.back ++ m.stop.after := by
      simpa [NamedFunction.text] using hsplit
    exact List.append_cancel_right hrest
  obtain ⟨hfront, -⟩ :=
    eq_of_last (p := fun a => a != '(') d'.all_back d.all_back (by simp) (by simp) hsame
  rw [← List.append_assoc] at hfront
  obtain ⟨hbegin, hsamename⟩ := NamedFunction.append_front_inj hfront
  exact ⟨a', d', ha', htext, hbegin, hname.trans hsamename, hdefault⟩

/-! ### What becomes a constant -/

/-- A function with a capital name stays. -/
theorem toArrow_of_isUpper {m : Match} (h : (m.group 2).head?.any Char.isUpper = true) :
    toArrow m = m.text := by
  rw [toArrow]
  exact if_pos h

/-- Any other function becomes a constant. -/
theorem const_prefix_toArrow {m : Match} (h : ¬(m.group 2).head?.any Char.isUpper = true) :
    "const ".toList <+: toArrow m := by
  have hprefix : ∀ k n e a p q g r : Text,
      k <+: k ++ n ++ e ++ a ++ p ++ q ++ g ++ r := fun k n e a p q g r =>
    ⟨n ++ e ++ a ++ p ++ q ++ g ++ r, by simp⟩
  rw [toArrow, if_neg h]
  exact hprefix ..

/-- The pattern matches nothing empty. -/
theorem isSolid_functionDeclaration : IsSolid functionDeclaration := isSolid_spec rfl

/-- A function is found unless one is that has a word in front of it. -/
theorem exists_hit {v a rest : Text} {d : NamedFunction} (ha : a = [] ∨ IsAsync a)
    (hdefault : ¬"default ".toList <:+ v)
    (halone : v.getLast?.any (isNamePart.or (CharSet.of ".")) = false)
    (hother : ∀ v' a', IsAsync a' → v' ++ a' = v ++ a → v'.length < v.length →
      "default ".toList <:+ v') :
    ∃ m ∈ functionDeclaration.hits (v ++ (a ++ (d.text ++ rest))),
      m.stop.after = rest ∧ m.group 2 = d.name := by
  obtain ⟨m, hm⟩ :
      ∃ m, MatchesBehind functionDeclaration (v ++ (a ++ (d.text ++ rest))) v m :=
    exists_matchesBehind_function ha d hdefault halone
  have hpos : 0 < m.text.length := by
    obtain ⟨b, u, -, htext, -⟩ := exists_cons_reads_of_matchAt? isSolid_functionDeclaration hm.2
    rw [htext]
    exact Nat.zero_lt_succ _
  obtain ⟨-, -, -, hname, hstop, -⟩ := eq_of_runs_over ha hm le_rfl (by omega)
  refine ⟨m, mem_hits_of_matchesBehind isSolid_functionDeclaration hm ?_, hstop, hname⟩
  -- A match that begins further in front begins at `async`.
  intro v' m' hm' hlt
  by_contra hover
  obtain ⟨a', ha', hsame, -, -, hfree⟩ := eq_of_runs_over ha hm' hlt.le (by omega)
  rcases ha' with rfl | ha'
  · have hlength := congrArg List.length hsame
    simp only [List.length_append, List.length_nil] at hlength
    omega
  · exact hfree (hother v' a' ha' hsame hlt)

namespace DefaultExport

variable (x : DefaultExport) (v : Text)

/-- The text behind the second word, as one. -/
theorem append_words : v ++ x.words = (v ++ ("export" ++ x.gap)) ++ ("default" ++ x.space) := by
  have hassoc : ∀ k g r : Text, v ++ (k ++ (g ++ r)) = (v ++ (k ++ g)) ++ r := by simp
  exact hassoc ..

/-- The two words end as the pattern looks for exactly if one space stands behind the second. -/
theorem default_suffix_iff : "default ".toList <:+ v ++ x.words ↔ x.space = " ".toList := by
  rw [append_words]
  constructor
  · rintro ⟨z, hz⟩
    have hz : z ++ ("default".toList ++ " ".toList) =
        (v ++ ("export" ++ x.gap)) ++ ("default" ++ x.space) := hz
    obtain ⟨-, hspace, -⟩ :=
      eq_of_append_blanks (a := 't') (b := 't') rfl rfl rfl rfl rfl x.isBlank_space hz
    exact hspace.symm
  · intro hspace
    rw [hspace]
    exact List.suffix_append _ _

/-- The word for an asynchronous function is no `default`. -/
theorem append_async_ne_words {z a : Text} (ha : IsAsync a) : z ++ a ≠ v ++ x.words := by
  rw [append_words]
  exact append_async_ne ha x.isBlank_space

end DefaultExport

/-- Behind the word for an asynchronous function the pattern does not find `default`. -/
theorem not_default_suffix_of_isAsync {z a : Text} (ha : IsAsync a) :
    ¬"default ".toList <:+ z ++ a := fun ⟨_, hz⟩ => append_async_ne ha (s := " ") rfl hz.symm

/-- Behind white space a function may begin. -/
theorem isFree_of_append_blanks {v s : Text} (hs : s.all isBlank = true) (hne : s ≠ []) :
    (v ++ s).getLast?.any (isNamePart.or (CharSet.of ".")) = false := by
  obtain ⟨b, hb, hblank⟩ := exists_getLast? hs hne
  have hdot : b ≠ '.' := by
    rintro rfl
    cases hblank
  have hof : CharSet.of "." b = false := by simp [CharSet.of, hdot]
  rw [getLast?_append_of hb, Option.any_some, CharSet.or, isNamePart_of_isBlank hblank, hof]
  rfl

/-- Without the one space the function is found, behind `async` if the space stands in front of
that. -/
theorem exists_hit_of_export (v rest : Text) (x : DefaultExport) (d : NamedFunction)
    (h : ¬(x.async? = none ∧ x.space = " ")) :
    ∃ m ∈ functionDeclaration.hits (v ++ (x.text ++ (d.text ++ rest))),
      m.stop.after = rest ∧ m.group 2 = d.name := by
  have halone : (v ++ x.words).getLast?.any (isNamePart.or (CharSet.of ".")) = false := by
    rw [x.append_words, ← List.append_assoc]
    exact isFree_of_append_blanks x.isBlank_space x.space_ne_nil
  cases hasync : x.async? with
  | none =>
    -- The function stands directly behind the words.
    have hspace : ¬x.space = " " := fun hspace => h ⟨hasync, hspace⟩
    have hsplit : v ++ (x.text ++ (d.text ++ rest)) = v ++ x.words ++ ([] ++ (d.text ++ rest)) := by
      simp [DefaultExport.text, hasync]
    rw [hsplit]
    refine exists_hit (.inl rfl) (mt (x.default_suffix_iff v).mp hspace) halone ?_
    rintro v' a' ha' hsame -
    rw [List.append_nil] at hsame
    exact absurd hsame (x.append_async_ne_words v ha')
  | some a =>
    have ha : IsAsync a := x.isAsync_async a hasync
    by_cases hspace : x.space = " "
    · -- The words hold off a match at `async`, but not one behind it.
      have hsplit : v ++ (x.text ++ (d.text ++ rest)) =
          v ++ x.words ++ a ++ ([] ++ (d.text ++ rest)) := by
        simp [DefaultExport.text, hasync]
      have halone' : (v ++ x.words ++ a).getLast?.any (isNamePart.or (CharSet.of ".")) = false := by
        obtain ⟨s, rfl, hs, hne⟩ := ha
        rw [← List.append_assoc]
        exact isFree_of_append_blanks hs hne
      rw [hsplit]
      refine exists_hit (.inl rfl) (not_default_suffix_of_isAsync ha) halone' ?_
      rintro v' a' ha' hsame -
      rw [List.append_nil] at hsame
      rw [(append_inj_of_isAsync ha' ha hsame).1]
      exact (x.default_suffix_iff v).mpr hspace
    · -- The match begins at `async`.
      have hsplit : v ++ (x.text ++ (d.text ++ rest)) =
          v ++ x.words ++ (a ++ (d.text ++ rest)) := by
        simp [DefaultExport.text, hasync]
      rw [hsplit]
      refine exists_hit (.inr ha) (mt (x.default_suffix_iff v).mp hspace) halone ?_
      intro v' a' ha' hsame hlt
      rw [(append_inj_of_isAsync ha' ha hsame).1] at hlt
      exact absurd hlt (Nat.lt_irrefl _)

/-- A function that is exported as the default stays one exactly if it is a constructor or one space
stands between the word `default` and the word `function`. -/
theorem not_isRewritten_iff (v rest : Text) (x : DefaultExport) (d : NamedFunction) :
    ¬IsRewritten (v ++ (x.text ++ (d.text ++ rest))) rest ↔
      (x.async? = none ∧ x.space = " ") ∨ d.name.head?.any Char.isUpper = true := by
  constructor
  · intro hstays
    by_contra hplain
    rw [not_or] at hplain
    obtain ⟨m, hm, hstop, hname⟩ := exists_hit_of_export v rest x d hplain.1
    exact hstays ⟨m, hm, hstop, const_prefix_toArrow (hname ▸ hplain.2)⟩
  · rintro hplain ⟨m, hm, rfl, hconst⟩
    obtain ⟨v', hm⟩ := exists_matchesBehind_of_mem_hits isSolid_functionDeclaration hm
    rw [← List.append_assoc] at hm
    obtain ⟨a', d', ha', htext, hbegin, hname, hdefault⟩ := eq_of_stop hm
    rcases hplain with ⟨hnone, hspace⟩ | hupper
    · -- The match would begin behind the words, which hold it off, or at `async`, which is missing.
      have hwords : x.text = x.words := by
        rw [DefaultExport.text, hnone]
        exact List.append_nil _
      rw [hwords] at hbegin
      rcases ha' with rfl | ha'
      · rw [List.append_nil] at hbegin
        exact hdefault (hbegin ▸ (x.default_suffix_iff v).mpr hspace)
      · exact x.append_async_ne_words v ha' hbegin
    · -- What is written is what was there, and begins with `function` or `async`.
      rw [toArrow_of_isUpper (hname ▸ hupper), htext] at hconst
      rcases ha' with rfl | ⟨s, rfl, -, -⟩
      · exact absurd (List.cons_prefix_cons.mp hconst).1 (by decide)
      · exact absurd (List.cons_prefix_cons.mp hconst).1 (by decide)

/-- The words in front of an asynchronous function, one space behind each. -/
def asyncExport : DefaultExport where
  gap := " "
  space := " "
  async? := some "async ".toList
  isBlank_gap := rfl
  gap_ne_nil := List.cons_ne_nil _ _
  isBlank_space := rfl
  space_ne_nil := List.cons_ne_nil _ _
  isAsync_async := by
    intro a ha
    obtain rfl := Option.some.inj ha
    exact ⟨" ", rfl, rfl, List.cons_ne_nil _ _⟩

/-- A function without parameters. -/
def loadFunction : NamedFunction where
  gap := " "
  name := "load"
  margin := []
  params := []
  mark := []
  space := " "
  isBlank_gap := rfl
  gap_ne_nil := List.cons_ne_nil _ _
  isName_name := rfl
  isBlank_margin := rfl
  isFlat_params := rfl
  isTypeMark_mark := .inl rfl
  isBlank_space := rfl

/-- Behind the two words and `async` a constant is written. -/
theorem isRewritten_asyncExport :
    asyncExport.text ++ loadFunction.text = "export default async function load() \x7b" ∧
      IsRewritten (asyncExport.text ++ loadFunction.text) [] ∧
      functionDeclaration.replace toArrow (asyncExport.text ++ loadFunction.text) =
        "export default async const load = () => \x7b" := by
  have htext : asyncExport.text ++ loadFunction.text =
      "export default async function load() \x7b" := rfl
  rw [htext]
  exact ⟨rfl, ⟨_, List.mem_of_mem_head? rfl, rfl, _, rfl⟩, rfl⟩

end CodeTidy.JavaScript
