import CodeTidy.JavaScript.Declaration
import CodeTidy.Proofs.JavaScript.Name
import CodeTidy.Proofs.Pattern.Places
import CodeTidy.Proofs.Text.Gauge

/-!
# `CodeTidy.Proofs.JavaScript.Declaration`: what becomes of a `var` statement

A `var` statement declares some names, of which each may have an initial value.
Its keyword should become `const` if every name has an initial value and is
assigned at most once, and `let` otherwise. The declarators are cut apart by
`splitParams`, for which angle brackets nest: a comparison in an initial value
hides the declarators behind it until the brackets balance again. The theorems:

* `statement_declarations`: the statement behind the keyword goes up to its
  semicolon.
* `splitParams_declarations`: what is cut out begins with the declarators that
  are not hidden.
* `mayBeConst_opening`: such a piece is judged as its declarator is.
* `puts_keyword`: the keyword is chosen by the declarators that are not hidden.
* `puts_promised_iff`: when that is the keyword that should be chosen.
-/

set_option autoImplicit false

namespace CodeTidy.JavaScript

open Pattern Text

/-- A text over a set that excludes some characters has none of these. -/
theorem all_except_of_excludes {set : CharSet} {members w : Text}
    (hset : excludes set members = true)
    (h : w.all set = true) : w.all (CharSet.except members) = true := by
  rw [List.all_eq_true]
  intro a ha
  simp only [CharSet.except, Bool.not_eq_true', List.contains_eq_mem, decide_eq_false_iff_not]
  intro hmem
  exact not_mem_of_excludes h hset hmem ha

/-! ### Declarators -/

/-- A character that an initial value is made of: no quote, bracket, comma, semicolon or line
feed. -/
def isInitial : CharSet := CharSet.except "'\"\x60()[]\x7b\x7d,;\n"

/-- A declared name with the white space around it, and what stands behind its equals sign if it
has one. -/
structure Declarator where
  margin : Text
  name : Text
  gap : Text
  value? : Option Text
  isBlank_margin : margin.all isBlank = true
  isName_name : isName name = true
  isBlank_gap : gap.all isBlank = true
  /-- A line feed behind the name would end the statement. -/
  newline_gap : '\n' ∉ gap
  isInitial_value : ∀ e ∈ value?, e.all isInitial = true
  /-- With a second such sign, the equals sign would be part of a comparison or of an arrow. -/
  head_value : ∀ e ∈ value?, e.head?.all (CharSet.except "=>") = true

namespace Declarator

/-- The equals sign and the initial value. -/
def initial (d : Declarator) : Text :=
  match d.value? with
  | none => []
  | some e => '=' :: e

/-- The declarator from its name on. -/
def core (d : Declarator) : Text := d.name ++ (d.gap ++ d.initial)

/-- The declarator as it is written. -/
def text (d : Declarator) : Text := d.margin ++ d.core

/-- How many more angle brackets are opened than closed. -/
def balance (d : Declarator) : Int := (d.core.count '<' : Int) - d.core.count '>'

/-- The name has an initial value and is assigned at most once in the text. -/
def mayBeConst (t : Text) (d : Declarator) : Bool :=
  d.value?.isSome && assignmentCount t d.name ≤ 1

end Declarator

/-- The declarators with commas between them. -/
def declarations (ds : List Declarator) : Text := joinWith "," (ds.map Declarator.text)

/-- The declarators in front of which the angle brackets balance, if `depth` more have been opened
than closed before. -/
def visibleFrom : (depth : Int) → List Declarator → List Declarator
  | _, [] => []
  | depth, d :: ds =>
    if depth = 0 then d :: visibleFrom (depth + d.balance) ds
    else visibleFrom (depth + d.balance) ds

/-- The declarators that no angle bracket hides. -/
def visible (ds : List Declarator) : List Declarator := visibleFrom 0 ds

/-- What is visible are some of the declarators. -/
theorem visibleFrom_subset (depth : Int) (ds : List Declarator) : visibleFrom depth ds ⊆ ds := by
  induction ds generalizing depth with
  | nil => exact fun _ h => h
  | cons d ds ih =>
    rw [visibleFrom]
    split
    · exact List.cons_subset_cons d (ih _)
    · exact List.subset_cons_of_subset d (ih _)

/-- The declarators behind the first one, each with the comma in front of it. -/
def others (ds : List Declarator) : Text := ds.flatMap (fun d => ',' :: d.text)

/-- The first declarator, and the others with their commas. -/
theorem declarations_cons (d : Declarator) (ds : List Declarator) :
    declarations (d :: ds) = d.text ++ others ds := by
  induction ds generalizing d with
  | nil => simp [declarations, others, joinWith_singleton]
  | cons e ds ih =>
    have hrest := ih e
    simp only [declarations, List.map_cons] at hrest
    simp only [declarations, List.map_cons, joinWith_cons_cons, hrest]
    simp [others]

/-! ### The statement behind the keyword -/

/-- A character at which a statement goes on whatever comes before: no quote, bracket, semicolon or
line feed. -/
def isCalm : CharSet := CharSet.except "'\"\x60()[]\x7b\x7d;\n"

/-- In an initial value a statement goes on. -/
theorem isCalm_of_isInitial {w : Text} (h : w.all isInitial = true) : w.all isCalm = true :=
  all_except_of_excludes (by decide) h

/-- In a declarator a statement goes on. -/
theorem all_isCalm_core (d : Declarator) : d.core.all isCalm = true := by
  have hname : d.name.all isCalm = true :=
    all_except_of_excludes (by decide) (all_isNamePart_of_isName d.isName_name)
  -- White space is calm unless it is a line feed, and the gap holds none.
  have hgap : d.gap.all isCalm = true := by
    have hquiet : d.gap.all (CharSet.except "'\"\x60()[]\x7b\x7d;") = true :=
      all_except_of_excludes (by decide) d.isBlank_gap
    rw [List.all_eq_true] at hquiet ⊢
    intro a ha
    have hne : a ≠ '\n' := by
      rintro rfl
      exact d.newline_gap ha
    have hnot := hquiet a ha
    simp only [CharSet.except, Bool.not_eq_true', List.contains_eq_mem,
      decide_eq_false_iff_not] at hnot
    simp only [isCalm, CharSet.except, Bool.not_eq_true', List.contains_eq_mem,
      decide_eq_false_iff_not]
    simp_all
  have hinitial : d.initial.all isCalm = true := by
    unfold Declarator.initial
    split
    · rfl
    · next e he =>
      rw [List.all_cons, isCalm_of_isInitial (d.isInitial_value e he), Bool.and_true]
      decide
  simp [Declarator.core, hname, hgap, hinitial]

/-- A calm stretch belongs to the statement. -/
theorem statementFrom_calm {w : Text} (hw : w.all isCalm = true) (seen r : Text) :
    statementFrom 0 none seen (w ++ r) = statementFrom 0 none (w.reverse ++ seen) r := by
  induction w generalizing seen with
  | nil => rfl
  | cons a w ih =>
    rw [List.all_cons, Bool.and_eq_true] at hw
    have ha := hw.1
    simp [isCalm, CharSet.except] at ha
    have hstep : statementFrom 0 none seen (a :: (w ++ r)) =
        statementFrom 0 none (a :: seen) (w ++ r) := by
      simp_all [statementFrom]
    rw [List.cons_append, hstep, ih hw.2, List.reverse_cons, List.append_assoc]
    rfl

/-- White space behind a comma belongs to the statement, line feeds too. -/
theorem statementFrom_margin {w seen : Text} (hw : w.all isBlank = true)
    (hseen : (seen.dropWhile isBlank).head? = some ',') (r : Text) :
    statementFrom 0 none seen (w ++ r) = statementFrom 0 none (w.reverse ++ seen) r := by
  induction w generalizing seen with
  | nil => rfl
  | cons a w ih =>
    rw [List.all_cons, Bool.and_eq_true] at hw
    have hstep : statementFrom 0 none seen (a :: (w ++ r)) =
        statementFrom 0 none (a :: seen) (w ++ r) := by
      have hne : a ∉ "'\"\x60()[]\x7b\x7d;".toList := by
        intro hmem
        have hblank : isBlank a = false := eq_false_of_excludes (by decide) hmem
        rw [hw.1] at hblank
        cases hblank
      simp_all [statementFrom]
    have hnext : ((a :: seen).dropWhile isBlank).head? = some ',' := by
      rw [List.dropWhile_cons, if_pos hw.1, hseen]
    rw [List.cons_append, hstep, ih hw.2 hnext, List.reverse_cons, List.append_assoc]
    rfl

/-- The statement goes on over all declarators, up to the semicolon. -/
theorem statementFrom_others (ds : List Declarator) (seen y : Text) :
    statementFrom 0 none seen (others ds ++ ';' :: y) = seen.reverse ++ others ds := by
  induction ds generalizing seen with
  | nil => simp [others, statementFrom]
  | cons d ds ih =>
    have hcomma := statementFrom_calm (w := [',']) (by decide) seen
      (d.margin ++ (d.core ++ (others ds ++ ';' :: y)))
    have hfirst : ((',' :: seen).dropWhile isBlank).head? = some ',' := by
      rw [List.dropWhile_cons, if_neg (by decide), List.head?_cons]
    have hmargin := statementFrom_margin d.isBlank_margin hfirst (d.core ++ (others ds ++ ';' :: y))
    have hcore := statementFrom_calm (all_isCalm_core d) (d.margin.reverse ++ ',' :: seen)
      (others ds ++ ';' :: y)
    have hsplit : others (d :: ds) ++ ';' :: y =
        [','] ++ (d.margin ++ (d.core ++ (others ds ++ ';' :: y))) := by
      simp [others, Declarator.text]
    rw [hsplit, hcomma, List.reverse_singleton, List.singleton_append, hmargin, hcore, ih]
    simp [others, Declarator.text]

/-- The statement behind the keyword goes up to its semicolon. -/
theorem statement_declarations (d : Declarator) (ds : List Declarator) (y : Text) :
    statement (d.core ++ (others ds ++ ';' :: y)) = d.core ++ others ds := by
  rw [statement, statementFrom_calm (all_isCalm_core d), statementFrom_others]
  simp

/-! ### The declarators cut apart -/

/-- A character at which nothing is cut and no quote or bracket begins or ends, angle brackets
apart. -/
def isUncut : CharSet := CharSet.except "'\"()[]\x7b\x7d,"

/-- A stretch of such characters goes to the first piece. -/
theorem cutFrom_append {w : Text} (hw : w.all isUncut = true) (depth : Int) {r piece : Text}
    {rest : List Text}
    (hr : Nesting.params.cutFrom ⟨depth + ((w.count '<' : Int) - w.count '>'), none⟩ r =
      piece :: rest) :
    Nesting.params.cutFrom ⟨depth, none⟩ (w ++ r) = (w ++ piece) :: rest := by
  induction w generalizing depth with
  | nil => simpa using hr
  | cons a w ih =>
    rw [List.all_cons, Bool.and_eq_true] at hw
    have ha := hw.1
    simp [isUncut, CharSet.except] at ha
    -- The character is no comma, and its step counts the angle brackets.
    have hcut : Nesting.cutsAt ⟨depth, none⟩ a = false := by
      simp_all [Nesting.cutsAt]
    have hstep : Nesting.params.step ⟨depth, none⟩ a =
        ⟨depth + (([a].count '<' : Int) - [a].count '>'), none⟩ := by
      by_cases hopen : a = '<'
      · subst hopen
        simp [Nesting.step, Nesting.params]
      · by_cases hclose : a = '>'
        · subst hclose
          simp [Nesting.step, Nesting.params]
          omega
        · simp_all [Nesting.step, Nesting.params]
    have hrest := ih hw.2 (depth + (([a].count '<' : Int) - [a].count '>')) (by
      rw [← hr]
      congr 2
      simp only [List.count_cons, List.count_nil]
      push_cast
      omega)
    rw [List.cons_append, Nesting.cutFrom, hcut, if_neg Bool.false_ne_true, hstep, hrest]
    rfl

/-- A declarator is not cut, angle brackets apart. -/
theorem all_isUncut_core (d : Declarator) : d.core.all isUncut = true := by
  have hname : d.name.all isUncut = true :=
    all_except_of_excludes (by decide) (all_isNamePart_of_isName d.isName_name)
  have hgap : d.gap.all isUncut = true := all_except_of_excludes (by decide) d.isBlank_gap
  have hinitial : d.initial.all isUncut = true := by
    unfold Declarator.initial
    split
    · rfl
    · next e he =>
      have hvalue : e.all isUncut = true :=
        all_except_of_excludes (by decide) (d.isInitial_value e he)
      rw [List.all_cons, hvalue, Bool.and_true]
      decide
  simp [Declarator.core, hname, hgap, hinitial]

/-- A piece that begins with a declarator, and with a comma behind that if it goes on. -/
def Opens (piece : Text) (d : Declarator) : Prop :=
  ∃ s x, s.all isBlank = true ∧ x.head?.all (· == ',') = true ∧ piece = s ++ (d.core ++ x)

/-- The pieces behind the first one begin with the declarators that are not hidden. -/
theorem exists_cutFrom_others (depth : Int) (ds : List Declarator) :
    ∃ x pieces, Nesting.params.cutFrom ⟨depth, none⟩ (others ds) = x :: pieces ∧
      x.head?.all (· == ',') = true ∧ List.Forall₂ Opens pieces (visibleFrom depth ds) := by
  induction ds generalizing depth with
  | nil => exact ⟨[], [], rfl, rfl, .nil⟩
  | cons d ds ih =>
    obtain ⟨x, pieces, hcut, hx, hpieces⟩ := ih (depth + d.balance)
    have hcore := cutFrom_append (all_isUncut_core d) depth hcut
    have hblank : ∀ a, isBlank a = false → d.margin.count a = 0 := by
      intro a ha
      exact List.count_eq_zero.mpr (not_mem_of_all d.isBlank_margin ha)
    have hmargin := cutFrom_append
      (all_except_of_excludes (by decide) d.isBlank_margin) depth (r := d.core ++ others ds)
      (by rw [hblank '<' (by decide), hblank '>' (by decide)]; simpa using hcore)
    have hopens : Opens (d.margin ++ (d.core ++ x)) d :=
      ⟨d.margin, x, d.isBlank_margin, hx, rfl⟩
    have hsplit : others (d :: ds) = ',' :: (d.margin ++ (d.core ++ others ds)) := by
      simp [others, Declarator.text]
    rw [hsplit, visibleFrom, Nesting.cutFrom]
    by_cases hdepth : depth = 0
    · subst hdepth
      rw [if_pos rfl, if_pos (by decide), hmargin]
      exact ⟨[], _, rfl, rfl, .cons hopens hpieces⟩
    · -- The comma is hidden, so it goes to the piece before it.
      have hstep : Nesting.params.step ⟨depth, none⟩ ',' = ⟨depth, none⟩ := by
        simp [Nesting.step, Nesting.params]
      rw [if_neg hdepth, if_neg (by simp [Nesting.cutsAt, hdepth]), hstep, hmargin]
      exact ⟨_, pieces, rfl, rfl, hpieces⟩

/-- What is cut out of the declarations begins with the declarators that are not hidden. -/
theorem cut_declarations (d : Declarator) (ds : List Declarator) :
    List.Forall₂ Opens (Nesting.params.cut (d.core ++ others ds)) (visible (d :: ds)) := by
  obtain ⟨x, pieces, hcut, hx, hpieces⟩ := exists_cutFrom_others (0 + d.balance) ds
  have hcore := cutFrom_append (all_isUncut_core d) 0 hcut
  rw [Nesting.cut, Nesting.State.start, hcore, visible, visibleFrom, if_pos rfl]
  exact .cons ⟨[], x, rfl, hx, rfl⟩ hpieces

/-! ### A piece judged -/

/-- An equals sign that no second sign follows begins the text. -/
def beginsInitial : Text → Bool
  | '=' :: r => r.head?.all (CharSet.except "=>")
  | _ => false

/-- If any continuation works, a character is not taken exactly if it does not come next. -/
theorem run?_one_eq_none_iff {α : Type} {set : CharSet} {c : Cursor} {caps : Captures}
    {k : Cursor → Captures → Option α} (hk : ∀ c, (k c caps).isSome = true) :
    run? (.one set) c caps k = none ↔ c.precedes set = false := by
  obtain ⟨before, after, pos⟩ := c
  cases after with
  | nil => simp [run?, Cursor.next?, Cursor.precedes]
  | cons a r =>
    have hsome := hk ⟨a :: before, r, pos + 1⟩
    cases ha : set a with
    | true =>
      obtain ⟨x, hx⟩ := Option.isSome_iff_exists.mp hsome
      simp [run?, Cursor.next?, Cursor.precedes, ha, hx]
    | false => simp [run?, Cursor.next?, Cursor.precedes, ha]

/-- The sign in front of an initial value. -/
def initialSign : Pattern := seq ["=", .notAhead (.one (CharSet.of "=>"))]

/-- No character of a kind comes next exactly if it is not the case that one does. -/
theorem head?_all_except_iff {members r : Text} :
    r.head?.all (CharSet.except members) = true ↔ r.head?.any (CharSet.of members) = false := by
  cases r with
  | nil => simp
  | cons a r => simp [CharSet.except, CharSet.of]

/-- The sign is taken where an initial value begins. -/
theorem takes_initialSign {c c' : Cursor} {caps caps' : Captures}
    (h : Takes initialSign c caps c' caps') : beginsInitial c.after = true ∧ caps' = caps := by
  obtain ⟨c₁, caps₁, hsign, rfl, rfl, hnone⟩ := h
  obtain ⟨hreads, rfl⟩ := takes_text_iff.mp hsign
  rw [run?_one_eq_none_iff (fun _ => rfl)] at hnone
  rw [hreads.after_eq]
  exact ⟨head?_all_except_iff.mpr hnone, rfl⟩

/-- Where an initial value begins the sign is taken. -/
theorem exists_takes_initialSign {c : Cursor} (caps : Captures)
    (h : beginsInitial c.after = true) : ∃ c', Takes initialSign c caps c' caps := by
  obtain ⟨before, after, pos⟩ := c
  cases after with
  | nil => cases h
  | cons a r =>
    by_cases ha : a = '='
    · subst ha
      refine ⟨⟨'=' :: before, r, pos + 1⟩, _, caps,
        takes_text_iff.mpr ⟨.one before '=' r pos, rfl⟩, rfl, rfl, ?_⟩
      rw [run?_one_eq_none_iff (fun _ => rfl)]
      exact head?_all_except_iff.mp h
    · simp_all [beginsInitial]

/-- What is read off the beginning of a piece. -/
theorem exists_of_declaredName {part : Text} {m : Match}
    (h : declaredName.matchStart? part = some m) :
    ∃ n s r, part = n ++ (s ++ r) ∧ isName n = true ∧ s.all isBlank = true ∧
      (s ++ r).head?.any isNamePart = false ∧ r.head?.all (fun a => !isBlank a) = true ∧
      m.group 1 = n ∧ (m.group? 2).isSome = beginsInitial r := by
  rw [matchStart?, matchAt?, show declaredName = .both (.group 1 name)
    (.both (many isBlank) (opt (.group 2 initialSign))) from rfl, run?, run?] at h
  -- The sign of an initial value is optional, so the name and the gap are taken as far as they go.
  have htotal : ∀ c caps, (run? (opt (.group 2 initialSign)) c caps
      (fun c' groups => some (⟨Cursor.start part, c', groups⟩ : Match))).isSome = true :=
    fun c caps => isSome_run?_of_takes
      (show Takes (opt (.group 2 initialSign)) c caps c caps from .inr ⟨rfl, rfl⟩) rfl
  obtain ⟨n, c₁, hn, hreads, hend, h⟩ := run?_name_of_total (fun c => by
    rw [run?]
    exact isSome_run?_of_takes ⟨[], rfl, Nat.zero_le _, .refl c, rfl⟩ (htotal _ _)) h
  rw [run?] at h
  obtain ⟨s, c₂, hs, hspace, hstop, h⟩ := run?_many_of_total (fun c => htotal c _) h
  have hpart : part = n ++ (s ++ c₂.after) := by
    rw [← List.append_assoc]
    exact (hreads.trans hspace).after_eq
  have hfollowing : (s ++ c₂.after).head?.any isNamePart = false := by
    rw [← hspace.after_eq]
    exact hend
  rw [opt, run?_either] at h
  cases hsign : run? (.group 2 initialSign) c₂ [(1, ⟨Cursor.start part, c₁⟩)]
      (fun c' groups => some (⟨Cursor.start part, c', groups⟩ : Match)) with
  | none =>
    rw [hsign, Option.none_or, run?] at h
    cases h
    refine ⟨n, s, c₂.after, hpart, hn, hs, hfollowing, hstop,
      Match.group_of_lookup rfl hreads, ?_⟩
    -- The sign would have been taken if it were there.
    cases hbegins : beginsInitial c₂.after with
    | false => rfl
    | true =>
      obtain ⟨c', htakes⟩ := exists_takes_initialSign [(1, ⟨Cursor.start part, c₁⟩)] hbegins
      have hsome := isSome_run?_of_takes (k := fun c' groups =>
        some (⟨Cursor.start part, c', groups⟩ : Match)) (p := .group 2 initialSign)
        ⟨_, htakes, rfl⟩ rfl
      rw [hsign] at hsome
      cases hsome
  | some m' =>
    rw [hsign, Option.some_or] at h
    cases h
    obtain ⟨c', caps', ⟨caps₁, htakes, rfl⟩, heq⟩ := exists_takes_of_run? hsign
    cases heq
    obtain ⟨hbegins, rfl⟩ := takes_initialSign htakes
    exact ⟨n, s, c₂.after, hpart, hn, hs, hfollowing, hstop,
      Match.group_of_lookup rfl hreads, by rw [hbegins]; rfl⟩

/-- A text that begins with a name declares something. -/
theorem matchStart?_declaredName_ne_none {n : Text} (hn : isName n = true) (z : Text) :
    declaredName.matchStart? (n ++ z) ≠ none := by
  intro hnone
  have hreads : (Cursor.start (n ++ z)).Reads n ((Cursor.start (n ++ z)).behind n) :=
    Cursor.reads_behind ⟨z, rfl⟩
  exact matchAt?_eq_none_iff.mp hnone _ _ ⟨_, _, ⟨_, takes_name_iff.mpr ⟨n, hn, hreads, rfl⟩, rfl⟩,
    _, _, ⟨[], rfl, Nat.zero_le _, .refl _, rfl⟩, .inr ⟨rfl, rfl⟩⟩

/-- White space in front of a name is all that is trimmed there, and nothing of the name is. -/
theorem exists_trim_of_name {s n r : Text} (hs : s.all isBlank = true) (hn : isName n = true) :
    ∃ z s', trim (s ++ (n ++ r)) = n ++ z ∧ z ++ s' = r ∧ s'.all isBlank = true := by
  obtain ⟨s₁, s', hsplit, hs₁, hs'⟩ := exists_blanks_around (s ++ (n ++ r))
  obtain ⟨hhead, -⟩ := ends_trim (s ++ (n ++ r))
  generalize trim (s ++ (n ++ r)) = u at hsplit hhead
  obtain ⟨a, w, rfl, ha, hw⟩ := exists_cons_of_isName hn
  have hvisible := isBlank_of_isNamePart (isNamePart_of_isNameStart ha)
  have hne : u ≠ [] := by
    rintro rfl
    have hmem : a ∈ s₁ ++ ([] ++ s') := by
      rw [← hsplit]
      simp
    have hall : (s₁ ++ ([] ++ s')).all isBlank = true := by simp [hs₁, hs']
    rw [List.all_eq_true.mp hall a hmem] at hvisible
    cases hvisible
  obtain ⟨b, u, rfl⟩ := List.exists_cons_of_ne_nil hne
  have hbegin : (a :: w ++ r).head?.all (fun c => !isBlank c) = true := by
    rw [List.cons_append, List.head?_cons, Option.all_some, hvisible]
    rfl
  obtain ⟨-, hrest⟩ : _ ∧ a :: w ++ r = (b :: u) ++ s' :=
    append_inj_of_all hs hs₁ hbegin hhead hsplit
  rcases List.append_eq_append_iff.mp hrest with ⟨z, hz, hr⟩ | ⟨z, hz, hr⟩
  · exact ⟨z, s', hz, hr.symm, hs'⟩
  · -- The white space at the end does not reach into the name.
    have hnil : z = [] := by
      cases z with
      | nil => rfl
      | cons c z =>
        have hpart : isNamePart c = true := by
          have hall : (a :: w).all isNamePart = true := all_isNamePart_of_isName hn
          rw [hz] at hall
          exact List.all_eq_true.mp hall c (by simp)
        rw [hr, List.cons_append, List.all_cons, Bool.and_eq_true] at hs'
        rw [isNamePart_of_isBlank hs'.1] at hpart
        cases hpart
    subst hnil
    rw [List.append_nil] at hz
    rw [List.nil_append] at hr
    exact ⟨[], s', by rw [hz, List.append_nil], hr, hs'⟩

/-- Whether an initial value is found behind the white space is not changed by white space at the
end or by a comma and what follows it. -/
theorem beginsInitial_eq {d : Declarator} {s r s' x : Text} (hs : s.all isBlank = true)
    (hr : r.head?.all (fun a => !isBlank a) = true) (hs' : s'.all isBlank = true)
    (hx : x.head?.all (· == ',') = true) (h : s ++ (r ++ s') = d.gap ++ (d.initial ++ x)) :
    beginsInitial r = d.value?.isSome := by
  have hcomma : x.head?.all (fun a => !isBlank a) = true := by
    cases x with
    | nil => rfl
    | cons a x =>
      have ha : a = ',' := by simpa using hx
      rw [List.head?_cons, Option.all_some, ha]
      decide
  -- Without a value only a comma can follow the gap. With one, an equals sign does, and what
  -- follows that is none of its kind.
  cases hvalue : d.value? with
  | none =>
    cases r with
    | nil => rfl
    | cons a r =>
      rw [Declarator.initial, hvalue, List.nil_append, List.cons_append] at h
      obtain ⟨-, hrest⟩ := append_inj_of_all (v := a :: (r ++ s')) hs d.isBlank_gap hr hcomma h
      have ha : a = ',' := by
        rw [← hrest] at hx
        simpa using hx
      subst ha
      rfl
  | some e =>
    have hinitial : d.initial = '=' :: e := by rw [Declarator.initial, hvalue]
    rw [hinitial] at h
    cases r with
    | nil =>
      have hmem : '=' ∈ s ++ ([] ++ s') := by
        rw [h]
        simp
      have hall : (s ++ ([] ++ s')).all isBlank = true := by simp [hs, hs']
      cases List.all_eq_true.mp hall '=' hmem
    | cons a r =>
      rw [List.cons_append, List.cons_append] at h
      obtain ⟨-, hrest⟩ := append_inj_of_all (v := a :: (r ++ s')) hs d.isBlank_gap hr rfl h
      obtain ⟨rfl, htail⟩ := List.cons.inj hrest
      have hhead : (e ++ x).head?.all (CharSet.except "=>") = true := by
        cases e with
        | nil =>
          cases x with
          | nil => rfl
          | cons b x =>
            have hb : b = ',' := by simpa using hx
            subst hb
            rfl
        | cons b e => exact d.head_value (b :: e) hvalue
      rw [beginsInitial]
      cases r with
      | nil => rfl
      | cons b r =>
        rw [← htail] at hhead
        exact hhead

/-- Behind the name of a declarator the name does not go on. -/
theorem head?_behind_name {d : Declarator} {x : Text} (hx : x.head?.all (· == ',') = true) :
    (d.gap ++ d.initial ++ x).head?.any isNamePart = false := by
  have hblank := d.isBlank_gap
  rw [Declarator.initial]
  generalize d.gap = s at hblank
  cases s with
  | cons a s =>
    rw [List.all_cons, Bool.and_eq_true] at hblank
    exact isNamePart_of_isBlank hblank.1
  | nil =>
    cases d.value? with
    | some e => exact (by decide : isNamePart '=' = false)
    | none =>
      cases x with
      | nil => rfl
      | cons a x =>
        have ha : a = ',' := by simpa using hx
        subst ha
        exact (by decide : isNamePart ',' = false)

/-- A piece is judged as the declarator that it begins with. -/
theorem mayBeConst_opening {t piece : Text} {d : Declarator} (h : Opens piece d) :
    mayBeConst t (trim piece) = d.mayBeConst t ∧ trim piece ≠ [] := by
  obtain ⟨s, x, hs, hx, rfl⟩ := h
  obtain ⟨z, s', htrim, hz, hs'⟩ :=
    exists_trim_of_name (r := d.gap ++ d.initial ++ x) hs d.isName_name
  have hcore : s ++ (d.core ++ x) = s ++ (d.name ++ (d.gap ++ d.initial ++ x)) := by
    simp [Declarator.core]
  rw [hcore, htrim]
  obtain ⟨m, hm⟩ := Option.ne_none_iff_exists'.mp (matchStart?_declaredName_ne_none d.isName_name z)
  obtain ⟨n, s₁, r, hpart, hn, hs₁, hfollowing, hr, hname, hvalue⟩ := exists_of_declaredName hm
  have hends : ∀ y : Text, y.head?.any isNamePart = false →
      y.head?.all (fun a => !isNamePart a) = true := by
    intro y hy
    cases y with
    | nil => rfl
    | cons a y => simpa using hy
  -- The name that is found ends where that of the declarator does.
  have hbehind : z.head?.any isNamePart = false := by
    cases z with
    | nil => rfl
    | cons a z =>
      have ha : (d.gap ++ d.initial ++ x).head? = some a := by
        rw [← hz]
        rfl
      rw [List.head?_cons, Option.any_some, ← Option.any_some (p := isNamePart), ← ha]
      exact head?_behind_name hx
  obtain ⟨rfl, rfl⟩ := append_inj_of_all (all_isNamePart_of_isName d.isName_name)
    (all_isNamePart_of_isName hn) (hends z hbehind) (hends _ hfollowing) hpart
  rw [List.append_assoc] at hz
  have hbegins := beginsInitial_eq hs₁ hr hs' hx (by simpa using hz)
  refine ⟨?_, ?_⟩
  · rw [mayBeConst, hm]
    dsimp only
    rw [hname, hvalue, hbegins, Declarator.mayBeConst]
  · obtain ⟨a, w, hname, -, -⟩ := exists_cons_of_isName d.isName_name
    rw [hname]
    exact List.cons_ne_nil _ _

/-- Pieces are judged as the declarators that they begin with. -/
theorem all_mayBeConst {t : Text} {pieces : List Text} {ds : List Declarator}
    (h : List.Forall₂ Opens pieces ds) :
    ((pieces.map trim).filter (fun p => !p.isEmpty)).all (mayBeConst t) =
      ds.all (Declarator.mayBeConst t) := by
  induction h with
  | nil => rfl
  | cons hopens _ ih =>
    obtain ⟨hjudged, hne⟩ := mayBeConst_opening (t := t) hopens
    rw [List.map_cons, List.filter_cons_of_pos (by simpa using hne), List.all_cons, List.all_cons,
      hjudged, ih]

/-- What `splitParams` finds in the declarations is judged as the declarators that are not
hidden. -/
theorem splitParams_declarations (t : Text) (d : Declarator) (ds : List Declarator) :
    (splitParams (d.core ++ others ds)).all (mayBeConst t) =
      (visible (d :: ds)).all (Declarator.mayBeConst t) :=
  all_mayBeConst (cut_declarations d ds)

/-! ### The keyword -/

/-- What is written for the keyword. -/
def keyword (t : Text) (m : Match) : Text :=
  if (splitParams (statement m.stop.after)).all (mayBeConst t) then "const " else "let "

/-- The keyword that the declarators call for. -/
def promised (t : Text) (ds : List Declarator) : Text :=
  if ds.all (Declarator.mayBeConst t) then "const " else "let "

/-- The pattern for the keyword takes it with the white space behind it, in front of a name. -/
theorem takes_varKeyword {c c' : Cursor} {caps caps' : Captures}
    (h : Takes varKeyword c caps c' caps') :
    ∃ s, s.all isBlank = true ∧ c.Reads ("var".toList ++ s) c' ∧
      c'.precedes isNameStart = true := by
  obtain ⟨c₁, caps₁, ⟨-, rfl, rfl⟩, c₂, caps₂, hvar, c₃, caps₃, ⟨s, hs, -, hspace, rfl⟩, rfl, c₄,
    hahead⟩ := h
  obtain ⟨hkeyword, rfl⟩ := takes_text_iff.mp hvar
  obtain ⟨c₅, caps₅, hname, -⟩ := exists_takes_of_run? hahead
  obtain ⟨n, hn, hreads, -⟩ := takes_name_iff.mp hname
  obtain ⟨a, w, rfl, ha, -⟩ := exists_cons_of_isName hn
  exact ⟨s, hs, hkeyword.trans hspace, by rw [hreads.precedes, ha]⟩

/-- The keyword is never empty. -/
theorem isSolid_varKeyword : IsSolid varKeyword := isSolid_spec rfl

/-- The keyword in front of a declarator is found. -/
theorem exists_matchesBehind_var {t v r : Text} {d : Declarator}
    (hv : v.getLast?.all (fun a => !isWord a) = true) (hd : d.margin ≠ [])
    (ht : t = v ++ ("var" ++ (d.margin ++ (d.core ++ r)))) :
    ∃ m, MatchesBehind varKeyword t v m ∧ m.text = "var" ++ d.margin ∧
      m.stop.after = d.core ++ r := by
  obtain ⟨a, w, hname, ha, -⟩ := exists_cons_of_isName d.isName_name
  have hvisible := isBlank_of_isNamePart (isNamePart_of_isNameStart ha)
  have hcore : (d.core ++ r).head? = some a := by
    rw [Declarator.core, hname]
    rfl
  have hreads : (Cursor.start t).Reads v ((Cursor.start t).behind v) :=
    Cursor.reads_behind ⟨_, ht.symm⟩
  generalize (Cursor.start t).behind v = c at hreads
  have hafter : c.after = ("var".toList ++ d.margin) ++ (d.core ++ r) := by
    rw [List.append_assoc]
    exact List.append_cancel_left (hreads.after_eq.symm.trans ht)
  -- The pattern passes over the keyword and the white space behind it.
  have hpassed : c.Reads ("var".toList ++ d.margin) (c.behind ("var".toList ++ d.margin)) :=
    Cursor.reads_behind ⟨_, hafter.symm⟩
  have hbehind : (c.behind ("var".toList ++ d.margin)).after = d.core ++ r :=
    List.append_cancel_left (hpassed.after_eq.symm.trans hafter)
  obtain ⟨c₁, hvar, hspace⟩ := hpassed.split
  have hboundary : c.atWordBoundary = true := by
    rw [Cursor.atWordBoundary, Cursor.precedes, hafter, Cursor.follows, hreads.before_eq]
    have hnot : (v.reverse ++ (Cursor.start t).before).head?.any isWord = false := by
      rw [Cursor.start, List.append_nil, List.head?_reverse]
      cases hlast : v.getLast? with
      | none => rfl
      | some b => simpa [hlast] using hv
    rw [hnot]
    rfl
  have hahead : ∃ c₂, Takes name (c.behind ("var".toList ++ d.margin)) [] c₂ [] := by
    refine ⟨_, takes_name_iff.mpr ⟨d.name, d.isName_name,
      Cursor.reads_behind ⟨d.gap ++ d.initial ++ r, ?_⟩, rfl⟩⟩
    rw [hbehind, Declarator.core]
    simp
  obtain ⟨c₂, hahead⟩ := hahead
  obtain ⟨⟨c₃, caps₃⟩, hfirst⟩ :=
    Option.isSome_iff_exists.mp (isSome_run?_of_takes (k := first) hahead rfl)
  have htakes : Takes varKeyword c [] (c.behind ("var".toList ++ d.margin)) caps₃ :=
    ⟨c, [], ⟨hboundary, rfl, rfl⟩, c₁, [], takes_text_iff.mpr ⟨hvar, rfl⟩, _, [],
      ⟨d.margin, d.isBlank_margin, List.length_pos_of_ne_nil hd, hspace, rfl⟩, rfl, c₃, hfirst⟩
  obtain ⟨m, hm⟩ := Option.ne_none_iff_exists'.mp fun hnone =>
    matchAt?_eq_none_iff.mp hnone _ _ htakes
  obtain ⟨hstart, htakes'⟩ := takes_of_matchAt? hm
  -- The match does not stop before that, as a name stands behind it.
  obtain ⟨s, hs, hpassed', hname'⟩ := takes_varKeyword htakes'
  have hmargin : s = d.margin ∧ m.stop.after = d.core ++ r := by
    have hsame := hpassed'.after_eq.symm.trans hafter
    rw [List.append_assoc, List.append_assoc] at hsame
    refine append_inj_of_all hs d.isBlank_margin ?_ ?_ (List.append_cancel_left hsame)
    · cases hstop : m.stop.after with
      | nil => rfl
      | cons b r' =>
        rw [Cursor.precedes, hstop, List.head?_cons, Option.any_some] at hname'
        rw [List.head?_cons, Option.all_some,
          isBlank_of_isNamePart (isNamePart_of_isNameStart hname')]
        rfl
    · rw [hcore, Option.all_some, hvisible]
      rfl
  obtain ⟨rfl, hstop⟩ := hmargin
  exact ⟨m, ⟨hstart ▸ hreads, hstart ▸ hm⟩, Match.text_of_reads (hstart ▸ hpassed'), hstop⟩

/-- No match that starts earlier runs over a `v`. -/
theorem clear_of_var {t v v' r : Text} {m : Match} (h : MatchesBehind varKeyword t v' m)
    (ht : t = v ++ 'v' :: r) (hlt : v'.length < v.length) :
    v'.length + m.text.length ≤ v.length := by
  obtain ⟨s, hs, hreads, -⟩ := takes_varKeyword h.takes
  -- A match begins with its only `v`, so it ends in front of the next one.
  have hv : 'v' ∉ "ar".toList ++ s := by
    rw [List.mem_append, not_or]
    exact ⟨by decide, not_mem_of_all hs (by decide)⟩
  have htext : m.text = 'v' :: ("ar".toList ++ s) := Match.text_of_reads hreads
  have hsplit : v ++ 'v' :: r = v' ++ (m.text ++ m.stop.after) := by
    rw [← ht, htext, ← List.append_assoc]
    exact (h.1.trans hreads).after_eq
  obtain ⟨x, rfl⟩ : v' <+: v := List.prefix_of_prefix_length_le
    ⟨_, hsplit.symm⟩ (List.prefix_append v ('v' :: r)) (by omega)
  rw [List.append_assoc, List.append_cancel_left_eq, htext] at hsplit
  cases x with
  | nil => simp at hlt
  | cons b x =>
    obtain ⟨-, hrest⟩ := List.cons.inj hsplit
    rw [htext]
    obtain ⟨z, hz, -⟩ := exists_of_append_eq hv hrest.symm
    simp [hz]

section Statement

variable {v y : Text} {d : Declarator} {ds : List Declarator}

/-- The keyword is chosen by the declarators that are not hidden. -/
theorem puts_keyword {t : Text} (hv : v.getLast?.all (fun a => !isWord a) = true)
    (hd : d.margin ≠ []) (ht : t = v ++ ("var" ++ (declarations (d :: ds) ++ ';' :: y))) :
    Puts varKeyword (keyword t) t v ("var" ++ d.margin) (promised t (visible (d :: ds))) := by
  have hsplit : t = v ++ ("var" ++ (d.margin ++ (d.core ++ (others ds ++ ';' :: y)))) := by
    rw [ht, declarations_cons, Declarator.text]
    simp
  obtain ⟨m, hm, htext, hstop⟩ := exists_matchesBehind_var hv hd hsplit
  have hkeyword : keyword t m = promised t (visible (d :: ds)) := by
    rw [keyword, hstop, statement_declarations, splitParams_declarations, promised]
  rw [← htext, ← hkeyword]
  exact puts_of_matchesBehind isSolid_varKeyword hm fun v' m' hm' hlt => clear_of_var hm' hsplit hlt

/-- Fewer declarators call for the same keyword, unless only those left out ask for `let`. -/
theorem promised_eq_iff {t : Text} {es : List Declarator} (h : es ⊆ ds) :
    promised t es = promised t ds ↔
      (es.all (Declarator.mayBeConst t) = true → ds.all (Declarator.mayBeConst t) = true) := by
  have hdown : ds.all (Declarator.mayBeConst t) = true → es.all (Declarator.mayBeConst t) = true :=
    fun hall => List.all_eq_true.mpr fun e he => List.all_eq_true.mp hall e (h he)
  unfold promised
  by_cases hes : es.all (Declarator.mayBeConst t) = true
  · by_cases hds : ds.all (Declarator.mayBeConst t) = true
    · simp [hes, hds]
    · simp [hes, hds]
  · have hds : ¬ds.all (Declarator.mayBeConst t) = true := fun hall => hes (hdown hall)
    simp [hes, hds]

end Statement

/-- The keyword of a `var` statement becomes what its declarators call for that are not hidden. That
is what all of them call for exactly if a hidden one does not ask for `let` where the others leave
`const`. -/
theorem puts_promised_iff (v y : Text) (d : Declarator) (ds : List Declarator)
    (hv : v.getLast?.all (fun a => !isWord a) = true) (hd : d.margin ≠ []) :
    let t := v ++ ("var" ++ (declarations (d :: ds) ++ ';' :: y))
    varsToConstLet t = varKeyword.replace (keyword t) t ∧
      Puts varKeyword (keyword t) t v ("var" ++ d.margin) (promised t (visible (d :: ds))) ∧
      (Puts varKeyword (keyword t) t v ("var" ++ d.margin) (promised t (d :: ds)) ↔
        ((visible (d :: ds)).all (Declarator.mayBeConst t) = true →
          (d :: ds).all (Declarator.mayBeConst t) = true)) := by
  intro t
  have hputs := puts_keyword (y := y) hv hd (Eq.refl t)
  have hsubset : visible (d :: ds) ⊆ d :: ds := visibleFrom_subset 0 (d :: ds)
  refine ⟨rfl, hputs, ?_⟩
  rw [← promised_eq_iff hsubset]
  constructor
  · intro h
    exact hputs.unique isSolid_varKeyword h
  · intro h
    rw [← h]
    exact hputs

/-- A comparison as initial value. -/
def comparison : Declarator where
  margin := " "
  name := "a"
  gap := " "
  value? := some " 1 < 2".toList
  isBlank_margin := by decide
  isName_name := by decide
  isBlank_gap := by decide
  newline_gap := by decide
  isInitial_value := by decide
  head_value := by decide

/-- A name without an initial value. -/
def bare : Declarator where
  margin := " "
  name := "b"
  gap := ""
  value? := none
  isBlank_margin := by decide
  isName_name := by decide
  isBlank_gap := by decide
  newline_gap := by decide
  isInitial_value := by decide
  head_value := by decide

/-- In front of the comparison the name without a value is seen, and the keyword becomes `let`. -/
theorem puts_let_before_comparison :
    Puts varKeyword (keyword "var b, a = 1 < 2;") "var b, a = 1 < 2;" [] "var " "let " := by
  have h := (puts_promised_iff [] [] bare [comparison] rfl (by decide)).2.2.mpr (by decide +kernel)
  exact h

/-- Behind the comparison it is hidden, and `const` is left without a value. -/
theorem varsToConstLet_hides_declarator :
    varsToConstLet "var a = 1 < 2, b;" = "const a = 1 < 2, b;" ∧
      "var a = 1 < 2, b;".toList = "var".toList ++ (declarations [comparison, bare] ++ [';']) ∧
      promised "var a = 1 < 2, b;" [comparison, bare] = "let " := by
  decide +kernel

end CodeTidy.JavaScript
