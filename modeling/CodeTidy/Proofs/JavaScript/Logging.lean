import CodeTidy.JavaScript.Statement
import CodeTidy.Proofs.Generic.Lexer
import CodeTidy.Proofs.Pattern.Places
import CodeTidy.Proofs.Pattern.Spells
import CodeTidy.Proofs.Text.Tables

/-!
# `CodeTidy.Proofs.JavaScript.Logging`: what goes with a log call

The rule for logging deletes lines. It looks for a line that begins with a call and ends with a
parenthesis, whatever stands between the two, and at the line of code in front. So other statements
on the line are deleted as well, and the head of a control statement is seen only where it has a
line for itself. The theorems:

* `exists_of_consoleLog`: the line that is deleted, up to its last parenthesis and behind it.
* `isStart_controlHead`: the heads that are seen.
* `standsAlone_iff`: when the call is deleted by itself, and is no body of a control statement.
-/

set_option autoImplicit false

namespace CodeTidy.JavaScript

open Pattern Text

/-! ### Calls that stand alone -/

/-- The string between quotes that the text begins with. -/
def string? : Text → Option Text
  | [] => none
  | a :: r => if "\"'\x60".toList.contains a then Generic.literal? (a :: r) else none

/-- The text behind the parenthesis that closes the one in front of it, if `depth` more are open.
Strings are passed; of the one that has been read last `passed` characters are left. -/
def closing? : (depth passed : Nat) → Text → Option Text
  | _, _, [] => none
  | depth, passed + 1, _ :: r => closing? depth passed r
  | depth, 0, a :: r =>
    match string? (a :: r) with
    | some u => closing? depth (u.length - 1) r
    | none =>
      if a == '(' then closing? (depth + 1) 0 r
      else if a == ')' then
        match depth with
        | 0 => some r
        | depth + 1 => closing? depth 0 r
      else closing? depth 0 r

/-- The text behind the parenthesis that opens the arguments of the call. -/
def behindCall (m : Match) : Text :=
  (m.start.after.dropWhile isIndent).drop "console.log(".length

/-- The text behind the arguments of the call, if they are closed in the match. -/
def behindArguments? (m : Match) : Option Text :=
  (closing? 0 0 (behindCall m)).filter (fun r => m.stop.after.length ≤ r.length)

/-- Whether there is nothing but a semicolon and blanks in the line. -/
def isStatementEnd (l : Text) : Bool :=
  match l with
  | [] => true
  | a :: s => (a == ';' || isIndent a) && s.all isIndent

/-- Whether the arguments are closed in the match, and nothing but a semicolon and blanks stands
behind them on the line. -/
def standsAlone? (m : Match) : Bool :=
  (behindArguments? m).any (fun r => isStatementEnd (firstLine r))

/-! ### Heads of control statements -/

/-- What stands in front of a condition. -/
inductive IsKeyword : Text → Prop where
  | if : IsKeyword "if"
  | for : IsKeyword "for"
  | while : IsKeyword "while"
  | elseIf {s : Text} (hs : s.all isBlank = true) (hne : s ≠ []) :
      IsKeyword ("else" ++ (s ++ "if"))

/-- The head of a control statement, with its condition if it has one. -/
inductive IsHead : Text → Prop where
  | else : IsHead "else"
  | do : IsHead "do"
  | condition {k s c : Text} (hk : IsKeyword k) (hs : s.all isBlank = true)
      (hc : closing? 0 0 (c ++ ")") = some []) : IsHead (k ++ (s ++ ("(" ++ (c ++ ")"))))

/-- White space and comments. -/
inductive IsGap : Text → Prop where
  | nil : IsGap []
  | blank {a : Char} {g : Text} (ha : isBlank a = true) (h : IsGap g) : IsGap (a :: g)
  | line {c g : Text} (hc : '\n' ∉ c) (h : IsGap g) : IsGap ("//" ++ (c ++ ("\n" ++ g)))
  | block {c g : Text} (hc : Generic.blockRest? c = some c) (h : IsGap g) :
      IsGap ("/*" ++ (c ++ g))

/-- The text ends with the head of a control statement whose body has not begun. -/
structure EndsInHead (t before head gap : Text) : Prop where
  split : t = before ++ (head ++ gap)
  isWord : before.getLast?.all (fun a => !isNamePart a && a != '.') = true
  isHead : IsHead head
  isGap : IsGap gap

/-- The last line of a text. -/
def lastLine (t : Text) : Text := (t.reverse.takeWhile (· != '\n')).reverse

/-- Whether there is nothing but a closing brace and white space in the line. -/
def closesBlock (l : Text) : Bool :=
  match trimStart l with
  | [] => true
  | a :: s => a == '\x7d' && allBlank s

/-- Whether the head stands on a line of its own, behind a closing brace at most. -/
def hasOwnLine (before head gap : Text) : Bool :=
  closesBlock (lastLine before) && !head.contains '\n' && allBlank gap

/-! ### The line with the call -/

/-- A semicolon and blanks end a statement. -/
theorem isStatementEnd_of_spells {s u : Text} (hs : s = [] ∨ s = [';'])
    (hu : u.all isIndent = true) : isStatementEnd (s ++ u) = true := by
  rcases hs with rfl | rfl
  · cases u with
    | nil => rfl
    | cons a u =>
      rw [List.all_cons, Bool.and_eq_true] at hu
      show ((a == ';' || isIndent a) && u.all isIndent) = true
      rw [hu.1, hu.2, Bool.or_true, Bool.true_and]
  · exact hu

/-- The end of a statement holds no closing parenthesis. -/
theorem not_mem_of_isStatementEnd {l : Text} (h : isStatementEnd l = true) : ')' ∉ l := by
  cases l with
  | nil => exact List.not_mem_nil
  | cons a s =>
    have h : ((a == ';' || isIndent a) && s.all isIndent) = true := h
    rw [Bool.and_eq_true] at h
    rw [List.mem_cons, not_or]
    refine ⟨?_, not_mem_of_all h.2 (by decide)⟩
    rintro rfl
    exact absurd h.1 (by decide)

/-- The text behind the call, in any case, and the blanks in front of it. -/
theorem drop_call {s call : Text} {e e' : Groups} (hs : s.all isIndent = true)
    (hcall : Spells (anyCase "console.log(") e call e') (r : Text) :
    ((s ++ (call ++ r)).dropWhile isIndent).drop "console.log(".length = r := by
  -- The call begins with a letter, so that the blanks in front of it end there.
  obtain ⟨hall, -⟩ := spells_anyCase hcall
  have hlength := hall.length_eq
  rw [List.dropWhile_append_of_pos (List.all_eq_true.mp hs)]
  cases hall with
  | @cons _ a _ w ha hrest =>
    have hletters : ∀ a ∈ letterForms, isIndent a = false := by decide
    have hvisible := hletters a (mem_letterForms (by decide) ha)
    rw [List.cons_append, List.dropWhile_cons_of_neg (by rw [hvisible]; decide), ← List.cons_append]
    exact List.drop_left' hlength.symm

/-- The line that is deleted: the arguments of the call and whatever else comes before the last
parenthesis, and what stands behind it. -/
theorem exists_of_consoleLog {t v : Text} {m : Match} (hm : MatchesBehind consoleLog t v m) :
    ∃ u e, behindCall m = u ++ ')' :: (e ++ m.stop.after) ∧ '\n' ∉ u ∧ ')' ∉ e ∧
      isStatementEnd (firstLine (e ++ m.stop.after)) = true := by
  -- Blanks, the call, a line up to a parenthesis, a semicolon, blanks, and the end of the line.
  obtain ⟨c₁, _, ⟨-, rfl, rfl⟩, c₂, _, ⟨s, hs, -, hindent, rfl⟩, c₃, _, hword, c₄, _, ⟨rfl, rfl, -⟩,
    c₅, _, ⟨u, hu, -, hrest, rfl⟩, c₆, _, hparen, c₇, _, hopt, c₈, _, ⟨s', hs', -, hblank, rfl⟩,
    hend⟩ := hm.takes
  obtain ⟨call, hcall, hspells⟩ := Takes.spells (p := anyCase "console.log(") hword
  obtain ⟨hclose, rfl⟩ := takes_text_iff.mp hparen
  obtain ⟨semi, hsemi, hcases⟩ : ∃ semi, c₆.Reads semi c₇ ∧ (semi = [] ∨ semi = [';']) := by
    rcases hopt with hopt | ⟨rfl, rfl⟩
    · exact ⟨[';'], (takes_text_iff.mp hopt).1, .inr rfl⟩
    · exact ⟨[], .refl _, .inl rfl⟩
  have hline : '\n' ∉ semi ++ s' := by
    rw [List.mem_append, not_or]
    refine ⟨?_, not_mem_of_all hs' (by decide)⟩
    rcases hcases with rfl | rfl <;> decide
  obtain ⟨feed, hfeed, hnot, hhead⟩ : ∃ feed, c₈.Reads feed m.stop ∧ ')' ∉ feed ∧
      (feed ++ m.stop.after).head?.all (· == '\n') = true := by
    rcases hend with hend | ⟨hend, hstop, -⟩
    · exact ⟨['\n'], (takes_text_iff.mp hend).1, by decide, rfl⟩
    · rw [hstop]
      exact ⟨[], .refl _, List.not_mem_nil, hend⟩
  have hafter : m.start.after =
      s ++ (call ++ (u ++ ')' :: (semi ++ s' ++ feed ++ m.stop.after))) := by
    rw [hindent.after_eq, hcall.after_eq, hrest.after_eq, hclose.after_eq, hsemi.after_eq,
      hblank.after_eq, hfeed.after_eq]
    simp
  refine ⟨u, semi ++ s' ++ feed, ?_, not_mem_of_all hu (by decide), ?_, ?_⟩
  · rw [behindCall, hafter, drop_call hs hspells]
  · rw [List.mem_append, List.mem_append, not_or, not_or]
    refine ⟨⟨?_, not_mem_of_all hs' (by decide)⟩, hnot⟩
    rcases hcases with rfl | rfl <;> decide
  · rw [List.append_assoc, firstLine_eq hline hhead]
    exact isStatementEnd_of_spells hcases hs'

/-! ### The parenthesis that closes -/

/-- The text behind a closing parenthesis stands behind one. -/
theorem exists_of_closing? {depth passed : Nat} {t r : Text}
    (h : closing? depth passed t = some r) : ∃ w, t = w ++ ')' :: r := by
  induction t generalizing depth passed with
  | nil => cases h
  | cons a t ih =>
    -- In all cases but the parenthesis itself the scan goes on behind the character.
    have hmore {depth passed : Nat} (h : closing? depth passed t = some r) :
        ∃ w, a :: t = w ++ ')' :: r := by
      obtain ⟨w, rfl⟩ := ih h
      exact ⟨a :: w, rfl⟩
    cases passed with
    | succ passed => exact hmore h
    | zero =>
      unfold closing? at h
      split at h
      · exact hmore h
      · split at h
        · exact hmore h
        · split at h
          · next ha =>
            cases depth with
            | zero =>
              cases h
              rw [beq_iff_eq.mp ha]
              exact ⟨[], rfl⟩
            | succ depth => exact hmore h
          · exact hmore h

/-- Behind the last parenthesis of the line stands the end of a statement. -/
theorem standsAlone?_iff {t v : Text} {m : Match} (hm : MatchesBehind consoleLog t v m) :
    standsAlone? m = true ↔ ∃ r, behindArguments? m = some r ∧ ')' ∉ firstLine r := by
  rw [standsAlone?, Option.any_eq_true]
  constructor
  · rintro ⟨r, hr, hend⟩
    exact ⟨r, hr, not_mem_of_isStatementEnd hend⟩
  · rintro ⟨r, hr, hlast⟩
    refine ⟨r, hr, ?_⟩
    obtain ⟨u, e, hcall, hu, he, hend⟩ := exists_of_consoleLog hm
    rw [behindArguments?, Option.filter_eq_some_iff, decide_eq_true_eq] at hr
    obtain ⟨w, hw⟩ := exists_of_closing? hr.1
    rw [hcall] at hw
    -- The parenthesis is no other than the last one of the line.
    obtain rfl : r = e ++ m.stop.after := by
      rcases append_eq_append_cons hw with ⟨z, rfl, hz⟩ | ⟨z, -, hz⟩
      · have hline : '\n' ∉ z := fun hmem => hu (by simp [hmem])
        rw [hz, firstLine_append_of_not_mem hline] at hlast
        exact absurd (List.mem_append_right z List.mem_cons_self) hlast
      · cases z with
        | nil => exact (List.cons.inj hz).2.symm
        | cons a z =>
          obtain ⟨y, -, hy⟩ := exists_of_append_eq he (List.cons.inj hz).2
          have hlength := congrArg List.length hy
          rw [List.length_append, List.length_cons] at hlength
          omega
    exact hend

/-! ### The heads that are seen -/

/-- A line that closes a block has a brace at most, with white space around it. -/
theorem exists_of_closesBlock {l : Text} (h : closesBlock l = true) :
    ∃ s b, l = s ++ b ∧ s.all isBlank = true ∧
      (b = [] ∨ ∃ s', b = '\x7d' :: s' ∧ s'.all isBlank = true) := by
  refine ⟨l.takeWhile isBlank, trimStart l, (List.takeWhile_append_dropWhile).symm,
    List.all_takeWhile, ?_⟩
  rw [closesBlock] at h
  split at h
  · next hnil => exact .inl hnil
  · next a s hcons =>
    rw [Bool.and_eq_true, beq_iff_eq] at h
    exact .inr ⟨s, by rw [hcons, h.1], h.2⟩

/-- The head without the white space around it. -/
def headBody : Pattern :=
  oneOf [
    seq [oneOf [seq [opt (seq ["else", space1]), "if"], "for", "while"], space, "(", restOfLine,
      ")"],
    "else", "do"]

/-- The pattern spells what stands in front of a condition. -/
theorem spells_keyword {k : Text} (hk : IsKeyword k) :
    Spells (oneOf [seq [opt (seq ["else", space1]), "if"], "for", "while"]) [] k [] := by
  cases hk with
  | «if» => exact .inl ⟨[], [], .inr ⟨rfl, rfl⟩, "if", rfl, spells_text.mpr ⟨rfl, rfl⟩⟩
  | «for» => exact .inr (.inl (spells_text.mpr ⟨rfl, rfl⟩))
  | «while» => exact .inr (.inr (spells_text.mpr ⟨rfl, rfl⟩))
  | @elseIf s hs hne =>
    refine .inl ⟨"else" ++ s, [],
      .inl ⟨"else", [], spells_text.mpr ⟨rfl, rfl⟩, s, rfl, hs, ?_, rfl⟩, "if",
      List.append_assoc .., spells_text.mpr ⟨rfl, rfl⟩⟩
    exact List.length_pos_of_ne_nil hne

/-- The pattern spells the heads of control statements on one line. -/
theorem spells_headBody {h : Text} (hh : IsHead h) (hline : '\n' ∉ h) :
    Spells headBody [] h [] := by
  cases hh with
  | «else» => exact .inr (.inl (spells_text.mpr ⟨rfl, rfl⟩))
  | «do» => exact .inr (.inr (spells_text.mpr ⟨rfl, rfl⟩))
  | @condition k s c hk hs hc =>
    have hrest : c.all (CharSet.except "\n") = true := all_except_iff.mpr fun a ha hmem => by
      obtain rfl := List.mem_singleton.mp ha
      have hmem : '\n' ∈ c := hmem
      exact hline (by simp [hmem])
    exact .inl ⟨k, [], spells_keyword hk, _, rfl, s, [], ⟨hs, Nat.zero_le _, rfl⟩, _, rfl, "(", [],
      spells_text.mpr ⟨rfl, rfl⟩, _, rfl, c, [], ⟨hrest, Nat.zero_le _, rfl⟩, ")", rfl,
      spells_text.mpr ⟨rfl, rfl⟩⟩

/-- A head behind a closing brace at most is seen. -/
theorem isStart_controlHead {l h : Text} (hl : closesBlock l = true) (hh : IsHead h)
    (hline : '\n' ∉ h) : controlHead.isStart (l ++ h) = true := by
  obtain ⟨s, b, rfl, hs, hb⟩ := exists_of_closesBlock hl
  -- The pattern passes over the whole line and needs no white space behind the head.
  obtain ⟨c, hreads, hend⟩ := Cursor.exists_reads (c := Cursor.start (s ++ b ++ h))
    (List.append_nil (s ++ b ++ h)).symm
  have hbrace : Spells (opt (seq ["\x7d", space])) [] b [] := by
    rcases hb with rfl | ⟨s', rfl, hs'⟩
    · exact .inr ⟨rfl, rfl⟩
    · exact .inl ⟨"\x7d", [], spells_text.mpr ⟨rfl, rfl⟩, s', rfl, hs', Nat.zero_le _, rfl⟩
  have hspells : Spells (seq [space, opt (seq ["\x7d", space]), headBody, space]) (textsOf [])
      (s ++ b ++ h) [] :=
    ⟨s, [], ⟨hs, Nat.zero_le _, rfl⟩, b ++ h, (List.append_assoc ..).symm, b, [], hbrace, h, rfl, h,
      [], spells_headBody hh hline, [], List.append_nil h, rfl, Nat.zero_le _, rfl⟩
  obtain ⟨caps, htakes, -⟩ := exists_takes_of_spells rfl hreads hspells
  have hlast : Cursor.atLastEnd c = true := by
    rw [Cursor.atLastEnd, hend]
    rfl
  have hwhole : Takes (seq ([space, opt (seq ["\x7d", space]), headBody, space] ++
      [.place Cursor.atLastEnd])) (Cursor.start (s ++ b ++ h)) [] c caps :=
    takes_seq_append.mpr ⟨_, caps, htakes, hlast, rfl, rfl⟩
  have hhead : Takes controlHead (Cursor.start (s ++ b ++ h)) [] c caps := hwhole
  exact isSome_run?_of_takes hhead rfl

/-- A head ends with `else`, with `do` or with the parenthesis of its condition. -/
theorem exists_of_isHead {h : Text} (hh : IsHead h) :
    ∃ z a, h = z ++ [a] ∧ a ∈ "eo)".toList := by
  cases hh with
  | «else» => exact ⟨"els", 'e', rfl, by decide⟩
  | «do» => exact ⟨"d", 'o', rfl, by decide⟩
  | @condition k s c => exact ⟨k ++ (s ++ ("(" ++ c)), ')', by simp, by decide⟩

/-- A line behind a head on a line of its own is kept. -/
theorem dropLog_of_hasOwnLine {m : Match} {before head gap : Text}
    (h : EndsInHead m.start.before.reverse before head gap)
    (hplain : hasOwnLine before head gap = true) : dropLog m = m.text := by
  rw [hasOwnLine, Bool.and_eq_true, Bool.and_eq_true, Bool.not_eq_true'] at hplain
  obtain ⟨⟨hbefore, hline⟩, hgap⟩ := hplain
  have hline : '\n' ∉ head := by simpa using hline
  -- The white space behind the head is dropped, and what is left ends with the line of the head.
  have hleft : (m.leftContext.takeWhile (· != '\n')).reverse = lastLine before ++ head := by
    obtain ⟨z, a, hlast, ha⟩ := exists_of_isHead h.isHead
    have hvisible : isBlank a = false :=
      (show ∀ a ∈ "eo)".toList, isBlank a = false by decide) a ha
    have hsplit : m.start.before = gap.reverse ++ (head.reverse ++ before.reverse) := by
      rw [← List.reverse_reverse m.start.before, h.split]
      simp
    have hdrop : m.leftContext = head.reverse ++ before.reverse := by
      have hblank : ∀ b ∈ gap.reverse, isBlank b = true := fun b hb =>
        List.all_eq_true.mp hgap b (List.mem_reverse.mp hb)
      rw [Match.leftContext, hsplit, List.dropWhile_append_of_pos hblank, hlast,
        List.reverse_concat, List.cons_append,
        List.dropWhile_cons_of_neg (by rw [hvisible]; exact Bool.false_ne_true)]
    have htake : ∀ b ∈ head.reverse, (b != '\n') = true := fun b hb =>
      bne_iff_ne.mpr (ne_of_mem_of_not_mem (List.mem_reverse.mp hb) hline)
    rw [hdrop, List.takeWhile_append_of_pos htake, List.reverse_append, List.reverse_reverse,
      lastLine]
  rw [dropLog, hleft, if_pos (isStart_controlHead hbefore h.isHead hline)]

/-! ### What is deleted -/

/-- Of a line that is deleted, the call stands alone if its last parenthesis closes the arguments.
It is no body of a control statement if there is no head in front of it that has a line feed in
it, a comment behind it, or other code in front of it on its line. -/
theorem standsAlone_iff {t : Text} {m : Match} (hm : m ∈ consoleLog.hits t)
    (hdropped : dropLog m = []) :
    (standsAlone? m = true ∧
        ¬∃ before head gap, EndsInHead m.start.before.reverse before head gap) ↔
      (∃ r, behindArguments? m = some r ∧ ')' ∉ firstLine r) ∧
        ∀ before head gap, EndsInHead m.start.before.reverse before head gap →
          hasOwnLine before head gap = true := by
  have hsolid : IsSolid consoleLog := isSolid_spec rfl
  obtain ⟨v, hm⟩ := exists_matchesBehind_of_mem_hits hsolid hm
  rw [standsAlone?_iff hm]
  refine and_congr_right fun _ => ⟨fun hnone before head gap hhead => ?_, ?_⟩
  · exact absurd ⟨before, head, gap, hhead⟩ hnone
  · rintro hplain ⟨before, head, gap, hhead⟩
    obtain ⟨a, u, -, htext, -⟩ := exists_cons_reads_of_matchAt? hsolid hm.2
    -- The head would have kept the line, and a match is not empty.
    have hkept := dropLog_of_hasOwnLine hhead (hplain before head gap hhead)
    rw [hdropped, htext] at hkept
    cases hkept

/-- A call with a parenthesis in a string, behind a block. -/
theorem standsAlone_behind_block : ∃ m ∈ consoleLog.hits "\x7d\nconsole.log(')');\n",
    dropLog m = [] ∧ standsAlone? m = true ∧
      ¬∃ before head gap, EndsInHead m.start.before.reverse before head gap := by
  have hm : _ ∈ consoleLog.hits "\x7d\nconsole.log(')');\n" := List.mem_of_mem_head? rfl
  refine ⟨_, hm, rfl, (standsAlone_iff hm rfl).mpr ⟨⟨";\n", rfl, by decide⟩, ?_⟩⟩
  rintro before head gap ⟨hsplit, -, hhead, -⟩
  obtain ⟨z, a, rfl, ha⟩ := exists_of_isHead hhead
  have hmem : a ∈ "\x7d\n".toList := by
    have hsplit : "\x7d\n".toList = before ++ (z ++ [a] ++ gap) := hsplit
    rw [hsplit]
    simp
  exact absurd hmem ((show ∀ a ∈ "eo)".toList, a ∉ "\x7d\n".toList by decide) a ha)

/-- A second statement is deleted with the call, and a call is deleted that a condition with a
comment behind it decides about. -/
theorem consoleLog_drops_more :
    (∃ m ∈ consoleLog.hits "console.log(a); foo();", dropLog m = [] ∧ standsAlone? m = false) ∧
      ∃ m ∈ consoleLog.hits "if (x) // c\n  console.log(x);", dropLog m = [] ∧
        EndsInHead m.start.before.reverse [] "if (x)" " // c\n" := by
  have hhead : IsHead "if (x)" := .condition .if (s := " ") (c := "x") rfl rfl
  have hgap : IsGap " // c\n" := .blank rfl (.line (c := " c") (by decide) .nil)
  exact ⟨⟨_, List.mem_of_mem_head? rfl, rfl, rfl⟩, _, List.mem_of_mem_head? rfl, rfl,
    rfl, rfl, hhead, hgap⟩

end CodeTidy.JavaScript
