import CodeTidy.Proofs.Constant.Numbers
import CodeTidy.Proofs.Generic.Spacing

/-!
# `CodeTidy.Proofs.Generic.Literals`: strings and comments survive

Replacements outside strings and comments leave them as they are: names take
the places of numbers in any of the three grammars, and operators get spaces
around them. An operator stands behind a character that is inert, and ends with
an equals sign, so the spaces around it belong to two inert stretches even where
there were none. The theorems:

* `literal?_operation`: no literal begins in an operator.
* `length_le_of_operation`: no operator runs over the end of a literal.
* `swapped_operators`: where operators are spaced, inert stretches are swapped.
* `literals_survive`: both replacements.
-/

set_option autoImplicit false

namespace CodeTidy.Generic

open Pattern Text

/-! ### Operators and literals -/

/-- What an operator stands behind is inert. -/
theorem endsOperand_eq_false {a : Char} (h : isInert a = false) : endsOperand a = false := by
  rw [Bool.eq_false_iff]
  intro hends
  rw [isInert_of_set (by decide) hends] at h
  cases h

/-- Spaces and tabs mean nothing to strings and comments. -/
theorem all_isInert_of_all_isIndent {s : Text} (h : s.all isIndent = true) : s.all isInert = true :=
  all_isInert_of_set (by decide) h

/-- No literal begins with the first character of a sign. -/
theorem literal?_sign {a : Char} (ha : isSign a = true) (r : Text) :
    literal? (a :: '=' :: r) = none := by
  have hsigns : "=!<>+-*/".toList.all (fun a => !"\"'`".toList.contains a) = true := by decide
  rw [isSign, CharSet.of, List.contains_iff_mem] at ha
  have hquotes := List.all_eq_true.mp hsigns a ha
  rw [Option.eq_none_iff_forall_ne_some]
  intro u hu
  rcases (literal?_eq_some_iff.mp hu).head with ⟨-, hhead | hhead⟩ | ⟨stops, hquote⟩
  · cases hhead
  · cases hhead
  · have hmarks : ∀ q ∈ quotes, "\"'`".toList.contains q.1 = true := by decide
    rw [hmarks _ hquote] at hquotes
    cases hquotes

/-- What a literal ends with. -/
theorem ends_of_literal? {u r : Text} (h : literal? (u ++ r) = some u) :
    (∃ v, u = v ++ ['*', '/']) ∨ (∃ v q stops, u = v ++ [q] ∧ (q, stops) ∈ quotes) ∨
      r.head?.all (· == '\n') = true := by
  have hliteral := literal?_eq_some_iff.mp h
  generalize hx : u ++ r = x at hliteral
  cases hliteral with
  | block hrest =>
    obtain ⟨-, v, rfl⟩ := exists_of_blockRest? hrest
    exact .inl ⟨'/' :: '*' :: v, rfl⟩
  | @string quote stops r' u hquote hrest =>
    obtain ⟨-, v, rfl⟩ := exists_of_quotedRest? hrest
    exact .inr (.inl ⟨quote :: v, quote, stops, rfl, hquote⟩)
  | line s => exact .inr (.inr (head?_behind_line (List.cons.inj (List.cons.inj hx).2).2))

/-- The end of two texts in a row is an end of the second one, or all of it with an end of the
first. -/
theorem suffix_cases {u v w : Text} (h : w <:+ u ++ v) : w <:+ v ∨ ∃ z, w = z ++ v ∧ z <:+ u := by
  obtain ⟨x, hx⟩ := h
  rcases List.append_eq_append_iff.mp hx with ⟨z, hu, hw⟩ | ⟨z, -, hv⟩
  · exact .inr ⟨z, hw, x, hu.symm⟩
  · exact .inl ⟨z, hv.symm⟩

section

variable {s sign s' r : Text}

/-- No literal begins in an operator. -/
theorem literal?_operation (hop : IsOperation s sign s' r) {w : Text}
    (hw : w <:+ s ++ (sign ++ s')) (hne : w ≠ []) (t : Text) : literal? (w ++ t) = none := by
  have hindent {s w t : Text} (hs : s.all isIndent = true) (hw : w <:+ s) (hne : w ≠ []) :
      literal? (w ++ t) = none := by
    obtain ⟨a, w, rfl⟩ := List.exists_cons_of_ne_nil hne
    have ha := List.all_eq_true.mp (all_isInert_of_all_isIndent hs) a (hw.subset List.mem_cons_self)
    exact literal?_inert ha _
  have hequals (r : Text) : literal? ('=' :: r) = none := literal?_inert (by decide) r
  -- The stretch begins behind the sign, in it or in front of it.
  rcases suffix_cases hw with hw | ⟨z, rfl, hz⟩
  · rcases suffix_cases hw with hw | ⟨z, rfl, hz⟩
    · exact hindent hop.right hw hne
    · by_cases hzne : z = []
      · rw [hzne]
        rw [hzne] at hne
        exact hindent hop.right (List.suffix_refl s') hne
      · rcases hop.sign_eq with rfl | ⟨a, ha, rfl⟩
        · obtain rfl := (List.suffix_cons_iff.mp hz).resolve_right
            fun hnil => hzne (List.suffix_nil.mp hnil)
          exact hequals _
        · rcases List.suffix_cons_iff.mp hz with rfl | hz
          · exact literal?_sign ha _
          · obtain rfl := (List.suffix_cons_iff.mp hz).resolve_right
              fun hnil => hzne (List.suffix_nil.mp hnil)
            exact hequals _
  · by_cases hzne : z = []
    · rw [hzne, List.nil_append, List.append_assoc]
      rcases hop.sign_eq with rfl | ⟨a, ha, rfl⟩
      · exact hequals _
      · exact literal?_sign ha _
    · rw [List.append_assoc]
      exact hindent hop.left hz hzne

/-- The characters of an operator. -/
theorem all_isIndent_or_isSign (hop : IsOperation s sign s' r) :
    (s ++ (sign ++ s')).all (fun a => isIndent a || isSign a) = true := by
  rw [List.all_eq_true]
  intro a ha
  rw [Bool.or_eq_true]
  rcases List.mem_append.mp ha with ha | ha
  · exact .inl (List.all_eq_true.mp hop.left a ha)
  · rcases List.mem_append.mp ha with ha | ha
    · exact .inr (List.all_eq_true.mp hop.sign_all a ha)
    · exact .inl (List.all_eq_true.mp hop.right a ha)

/-- A slash in an operator is the first character of its sign. -/
theorem eq_of_slash (hop : IsOperation s sign s' r) {w z : Text}
    (h : w ++ '/' :: z = s ++ (sign ++ s')) : w = s := by
  have hnot {s : Text} (hs : s.all isIndent = true) : '/' ∉ s := fun hmem =>
    absurd (List.all_eq_true.mp hs _ hmem) (by decide)
  obtain ⟨a, rest, hsign, hrest⟩ : ∃ a rest, sign ++ s' = a :: rest ∧ '/' ∉ rest := by
    rcases hop.sign_eq with rfl | ⟨a, -, rfl⟩
    · exact ⟨'=', s', rfl, hnot hop.right⟩
    · refine ⟨a, '=' :: s', rfl, ?_⟩
      rw [List.mem_cons, not_or]
      exact ⟨by decide, hnot hop.right⟩
  rw [hsign] at h
  obtain ⟨x, rfl, hx⟩ := exists_of_append_eq (hnot hop.left) h.symm
  cases x with
  | nil => rw [List.append_nil]
  | cons b x =>
    obtain ⟨-, rfl⟩ := List.cons.inj hx
    exact absurd (List.mem_append_right x List.mem_cons_self) hrest

/-- No operator runs over the end of a literal that it begins in. -/
theorem length_le_of_operation (hop : IsOperation s sign s' r) {c d : Cursor} {u v w y : Text}
    (hliteral : literal? (u ++ y) = some u) (hu : u = v ++ w) (hne : w ≠ []) (hreads : c.Reads v d)
    (hd : d.follows endsOperand = true) (heq : w ++ y = s ++ (sign ++ s') ++ r) :
    (s ++ (sign ++ s')).length ≤ w.length := by
  by_contra hlong
  obtain ⟨z, hz⟩ : w <+: s ++ (sign ++ s') :=
    List.prefix_of_prefix_length_le ⟨y, heq⟩ (List.prefix_append _ r) (by omega)
  have hall := all_isIndent_or_isSign hop
  rw [← hz] at hlong hall heq
  have hlast {x : Text} {a : Char} (hx : u = x ++ [a]) : ∃ w', w = w' ++ [a] := by
    obtain ⟨w', b, rfl⟩ := (List.eq_nil_or_concat w).resolve_left hne
    rw [hu, List.concat_eq_append, ← List.append_assoc] at hx
    obtain rfl := (List.cons.inj (List.append_inj' hx rfl).2).1
    exact ⟨w', List.concat_eq_append⟩
  rcases ends_of_literal? hliteral with ⟨x, hx⟩ | ⟨x, q, stops, hx, hquote⟩ | hline
  · -- In front of the slash stands an asterisk, which is neither blank nor the end of an operand.
    obtain ⟨w', rfl⟩ := hlast (x := x ++ ['*']) (by rw [hx, List.append_assoc]; rfl)
    rw [List.append_assoc] at hz
    obtain rfl := eq_of_slash hop hz
    have hstar : v ++ w' = x ++ ['*'] := by
      have hsame := hu.symm.trans hx
      rw [← List.append_assoc, show x ++ ['*', '/'] = (x ++ ['*']) ++ ['/'] by simp] at hsame
      exact List.append_cancel_right hsame
    rcases List.eq_nil_or_concat w' with rfl | ⟨s₁, b, rfl⟩
    · rw [List.append_nil] at hstar
      rw [hstar] at hreads
      rw [hreads.follows] at hd
      exact absurd hd (by decide)
    · rw [List.concat_eq_append, ← List.append_assoc] at hstar
      obtain rfl := (List.cons.inj (List.append_inj' hstar rfl).2).1
      have hblank := hop.left
      rw [List.concat_eq_append, List.all_append, Bool.and_eq_true] at hblank
      exact absurd hblank.2 (by decide)
  · -- A quote is not in the operator.
    obtain ⟨w', rfl⟩ := hlast hx
    have hmem : q ∈ (w' ++ [q]) ++ z := by simp
    have hquotes : ∀ q ∈ quotes, (isIndent q.1 || isSign q.1) = false := by decide
    have hin := List.all_eq_true.mp hall q hmem
    rw [hquotes _ hquote] at hin
    cases hin
  · -- Nor is a line feed.
    rw [List.append_assoc] at heq
    have hy := List.append_cancel_left heq
    cases z with
    | nil => simp at hlong
    | cons b z =>
      rw [hy, List.cons_append, List.head?_cons, Option.all_some, beq_iff_eq] at hline
      have hin := List.all_eq_true.mp hall b (List.mem_append_right w List.mem_cons_self)
      rw [hline] at hin
      exact absurd hin (by decide)

end

/-! ### Tokens -/

/-- The scanner for operators, which get one space on both sides. -/
def operatorScanner : Scanner where
  grammar := .cStyle
  isBehind := endsOperand
  IsFree _ _ := True
  IsHit behind old new r := behind = true ∧
    ∃ s sign s', IsOperation s sign s' r ∧ old = s ++ (sign ++ s') ∧ new = " " ++ sign ++ " "

/-- Operators are what their scanner says: they hold nothing that means anything to strings and
comments. -/
theorem fits_operatorScanner :
    operatorScanner.Fits spacedOperator (fun m => " " ++ m.group 1 ++ " ") where
  solid := isSolid_spec rfl
  free _ _ := trivial
  hit c m h := by
    obtain ⟨hfollows, s, s', hop, hreads⟩ := exists_isOperation h
    rw [← (takes_of_matchAt? h).1] at hreads
    exact ⟨hfollows, s, m.group 1, s', hop, Match.text_of_reads hreads, rfl⟩
  begins c m h w hw hne := by
    obtain ⟨-, s, s', hop, hreads⟩ := exists_isOperation h
    rw [← (takes_of_matchAt? h).1] at hreads
    rw [Match.text_of_reads hreads] at hw
    exact literal?_operation hop hw hne _
  -- An operator does not begin within a literal, since an operand stands in front of it.
  ends c u v w d m hliteral hu hne hreads h := by
    obtain ⟨hfollows, s, s', hop, hreads'⟩ := exists_isOperation h
    have hbehind : c.Reads u (c.behind u) := Cursor.reads_behind (LiteralGrammar.begins hliteral)
    rw [hbehind.after_eq] at hliteral
    rw [← (takes_of_matchAt? h).1] at hreads'
    rw [Match.text_of_reads hreads']
    rw [(takes_of_matchAt? h).1] at hreads'
    exact length_le_of_operation hop hliteral hu hne hreads hfollows
      ((hreads.after_of_split hbehind hu).symm.trans hreads'.after_eq)

/-- Whether the first token is a match. -/
def beginsHit : List Token → Bool
  | .hit _ _ :: _ => true
  | _ => false

section

variable {behind : Bool} {ts : List Token}

/-- No match begins where none may begin behind the character in front. -/
theorem beginsHit_eq_false (h : Scans operatorScanner behind ts) (hbehind : behind = false) :
    beginsHit ts = false := by
  cases h with
  | hit _ hhit =>
    rw [hhit.1] at hbehind
    cases hbehind
  | _ => rfl

/-- Behind a literal comes no operator. -/
theorem beginsHit_behind_literal {u : Text} (hliteral : literal? (u ++ oldText ts) = some u)
    (h : Scans operatorScanner (u.getLast?.any endsOperand) ts) : beginsHit ts = false := by
  have hfalse := beginsHit_eq_false h
  -- A block comment ends with a slash, a string with its quote, and neither ends an operand. A line
  -- comment ends at a line feed, with which no operator begins.
  rcases ends_of_literal? hliteral with ⟨v, rfl⟩ | ⟨v, q, stops, rfl, hquote⟩ | hline
  · refine hfalse ?_
    rw [List.getLast?_append_of_ne_nil v (by simp)]
    decide
  · have hquotes : ∀ q ∈ quotes, endsOperand q.1 = false := by decide
    refine hfalse ?_
    rw [List.getLast?_concat]
    exact hquotes _ hquote
  · cases h with
    | @hit _ old new ts _ hhit =>
      obtain ⟨-, s, sign, s', hop, rfl, -⟩ := hhit
      obtain ⟨a, w, hcons⟩ := List.exists_cons_of_ne_nil
        (List.append_ne_nil_of_right_ne_nil s
          (List.append_ne_nil_of_left_ne_nil hop.sign_ne_nil s'))
      have hall := all_isIndent_or_isSign hop
      rw [hcons, List.all_cons, Bool.and_eq_true] at hall
      rw [show oldText (.hit (s ++ (sign ++ s')) new :: ts) = a :: (w ++ oldText ts) from
        congrArg (· ++ oldText ts) hcons, List.head?_cons, Option.all_some, beq_iff_eq] at hline
      rw [hline] at hall
      exact absurd hall.1 (by decide)
    | _ => rfl

/-- Behind an operator the text goes on with no other. -/
theorem getLast?_operation {s sign s' r : Text} (hop : IsOperation s sign s' r) :
    (s ++ (sign ++ s')).getLast?.any endsOperand = false := by
  obtain ⟨v, hsign⟩ := hop.exists_sign
  rw [List.getLast?_append_of_ne_nil s (List.append_ne_nil_of_left_ne_nil hop.sign_ne_nil s')]
  rcases List.eq_nil_or_concat s' with rfl | ⟨w, a, rfl⟩
  · rw [List.append_nil, hsign, List.getLast?_concat]
    decide
  · have hright := hop.right
    rw [List.concat_eq_append, List.all_append, Bool.and_eq_true, List.all_cons, Bool.and_eq_true]
      at hright
    rw [List.concat_eq_append, ← List.append_assoc, List.getLast?_concat]
    exact (spec_of_isIndent hright.2.1).2.1

/-- Behind an inert character the spaces around an operator are part of inert stretches. -/
theorem swapped_operation {s sign s' r t t' : Text} (hop : IsOperation s sign s' r)
    (h : Swapped t t') {a : Char} (ha : isInert a = true) :
    Swapped (a :: (s ++ (sign ++ s') ++ t)) (a :: (" " ++ sign ++ " " ++ t')) := by
  -- :: The equals sign takes the spaces behind it along, and the character in front those in front
  -- of the sign.
  have hright : Swapped ('=' :: s' ++ t) ('=' :: [' '] ++ t') := by
    refine .swap ?_ (by decide) (List.cons_ne_nil _ _) (List.cons_ne_nil _ _) h
    rw [List.all_cons, all_isInert_of_all_isIndent hop.right]
    decide
  have hsign : Swapped (sign ++ s' ++ t) (sign ++ [' '] ++ t') := by
    rcases hop.sign_eq with rfl | ⟨b, -, rfl⟩
    · exact hright
    · exact .keep b hright
  have hleft : Swapped (a :: s ++ (sign ++ s' ++ t)) (a :: [' '] ++ (sign ++ [' '] ++ t')) := by
    refine .swap ?_ ?_ (List.cons_ne_nil _ _) (List.cons_ne_nil _ _) hsign
    · rw [List.all_cons, ha, all_isInert_of_all_isIndent hop.left]
      rfl
    · rw [List.all_cons, ha]
      decide
  have hold : a :: s ++ (sign ++ s' ++ t) = a :: (s ++ (sign ++ s') ++ t) := by simp
  have hnew : a :: [' '] ++ (sign ++ [' '] ++ t') = a :: (" " ++ sign ++ " " ++ t') := by
    show _ = a :: ([' '] ++ sign ++ [' '] ++ t')
    simp
  rw [← hold, ← hnew]
  exact hleft

/-- Where operators are spaced, inert stretches are swapped. The first one needs an inert character
in front of it. -/
theorem swapped_operators (h : Scans operatorScanner behind ts) :
    (∀ a, isInert a = true → Swapped (a :: oldText ts) (a :: newText ts)) ∧
      (beginsHit ts = false → Swapped (oldText ts) (newText ts)) := by
  induction h with
  | stop => exact ⟨fun a _ => .refl _, fun _ => .nil⟩
  | @plain behind a ts _ _ hscans ih =>
    have hswapped : Swapped (a :: oldText ts) (a :: newText ts) := by
      cases hinert : isInert a with
      | true => exact ih.1 a hinert
      | false =>
        exact .keep a (ih.2 (beginsHit_eq_false hscans (endsOperand_eq_false hinert)))
    exact ⟨fun b _ => .keep b hswapped, fun _ => hswapped⟩
  | @hit behind old new ts _ hhit hscans ih =>
    obtain ⟨-, s, sign, s', hop, rfl, rfl⟩ := hhit
    have hswapped := ih.2 (beginsHit_eq_false hscans (getLast?_operation hop))
    exact ⟨fun a ha => swapped_operation hop hswapped ha, fun hfalse => nomatch hfalse⟩
  | @literal behind u ts hliteral hscans ih =>
    have hswapped := (ih.2 (beginsHit_behind_literal hliteral hscans)).append_left u
    exact ⟨fun b _ => .keep b hswapped, fun _ => hswapped⟩

/-! ### The new text -/

/-- The scanner for literals alone, to which it does not matter what else a text holds. -/
def literalScanner : Scanner where
  grammar := .cStyle
  isBehind _ := false
  IsFree _ _ := True
  IsHit _ _ _ _ := True

/-- What a token is in the new text, in which operators have their spaces. -/
def settle : Token → Token
  | .hit _ new => .hit new new
  | x => x

/-- What was new is old once the replacement is done. -/
theorem oldText_settle (ts : List Token) : oldText (ts.map settle) = newText ts := by
  induction ts with
  | nil => rfl
  | cons x ts ih =>
    show (settle x).old ++ oldText (ts.map settle) = x.new ++ newText ts
    rw [ih]
    cases x <;> rfl

/-- The replacement changes no literal. -/
theorem literalsIn_settle (ts : List Token) : literalsIn (ts.map settle) = literalsIn ts := by
  induction ts with
  | nil => rfl
  | cons x ts ih =>
    cases x with
    | hit old new => exact ih
    | plain a => exact ih
    | literal u => exact congrArg (u :: ·) ih

/-- The tokens of the text with spaces are those of the old text, with its operators spaced. -/
theorem scans_settle (h : Scans operatorScanner behind ts) (b : Bool) :
    Scans literalScanner b (ts.map settle) := by
  induction h generalizing b with
  | stop => exact .stop b
  | @plain behind a ts hnone _ hscans ih =>
    show Scans _ b (.plain a :: ts.map settle)
    refine .plain ?_ trivial (ih _)
    rw [oldText_settle]
    -- No literal begins with an inert character. Any other one ends no operand, so no operator
    -- begins behind it and the texts agree where it matters.
    cases hinert : isInert a with
    | true => exact literal?_inert hinert _
    | false =>
      exact LiteralGrammar.literal?_eq_none ((swapped_operators hscans).2
        (beginsHit_eq_false hscans (endsOperand_eq_false hinert))) hnone
  | @hit behind old new ts _ hhit _ ih =>
    obtain ⟨-, s, sign, s', hop, rfl, rfl⟩ := hhit
    have hspaced : IsOperation [' '] sign [' '] (oldText ts) := ⟨rfl, hop.sign_mem, rfl, hop.behind⟩
    have hnew : " " ++ sign ++ " " = [' '] ++ (sign ++ [' ']) := List.append_assoc ..
    show Scans _ b (.hit (" " ++ sign ++ " ") (" " ++ sign ++ " ") :: ts.map settle)
    rw [hnew]
    exact .hit (fun w hw hne => literal?_operation hspaced hw hne _) trivial (ih _)
  | @literal behind u ts hliteral hscans ih =>
    show Scans _ b (.literal u :: ts.map settle)
    refine .literal ?_ (ih _)
    rw [oldText_settle]
    exact LiteralGrammar.literal?_append hliteral
      ((swapped_operators hscans).2 (beginsHit_behind_literal hliteral hscans))

end

/-- The literals of a text stay as they are where its operators get spaces around them. -/
theorem literals_spaceOperators (t : Text) :
    (LiteralGrammar.cStyle.literals (spaceOperators t)).map Match.text =
      (LiteralGrammar.cStyle.literals t).map Match.text := by
  rw [spaceOperators]
  split
  · obtain ⟨ts, hscans, rfl, hnew, -⟩ := fits_operatorScanner.exists_scans t
    have hnew : newText ts = LiteralGrammar.cStyle.replaceOutside spacedOperator
      (fun m => " " ++ m.group 1 ++ " ") (oldText ts) := hnew
    have hold : (LiteralGrammar.cStyle.literals (oldText ts)).map Match.text = literalsIn ts :=
      hscans.literals_eq
    have hsettled : (LiteralGrammar.cStyle.literals (oldText (ts.map settle))).map Match.text =
      literalsIn (ts.map settle) := (scans_settle hscans false).literals_eq
    rw [← hnew, ← oldText_settle, hsettled, literalsIn_settle, hold]
  · rfl

/-- Strings and comments survive: a text has the same literals, in the same order, after any of the
numbers outside them have got their names, in each grammar, and after its operators have got spaces
around them. -/
theorem literals_survive :
    (∀ (g : LiteralGrammar) (chosen : Match → Bool) (t : Text),
      (g.literals (g.replaceOutside Constant.number
        (fun m => if chosen m then Constant.name m.text else m.text) t)).map Match.text =
          (g.literals t).map Match.text) ∧
    ∀ t, (LiteralGrammar.cStyle.literals (spaceOperators t)).map Match.text =
      (LiteralGrammar.cStyle.literals t).map Match.text := by
  refine ⟨fun g chosen t => Constant.literals_rename g _ (fun m => ?_) t, literals_spaceOperators⟩
  cases chosen m with
  | true => exact .inr rfl
  | false => exact .inl rfl

end CodeTidy.Generic
