import CodeTidy.Proofs.Generic.Indent
import CodeTidy.Proofs.Generic.LineEnds
import CodeTidy.Proofs.Generic.Operators
import CodeTidy.Proofs.Json.Fits

/-!
# `CodeTidy.Proofs.Generic.Format`: what all passes of the formatter keep

The last pass of the formatter puts other white space around the lines of a
text. A line of a JSON text begins and ends outside of its strings, so this
pass relays the text, as the others do. In any text each pass puts white space in
the place of white space. The theorems:

* `relaid_reindent`: lines are indented anew.
* `relays_format`: all passes together, so that what was parsed is parsed as the
  same value.
* `nonBlank_spaceOperators`: signs keep their characters when they are spaced.
* `nonBlank_indentLines`: lines that are indented anew keep theirs.
* `format_keeps_nonBlank`: all passes together, in any text.
-/

set_option autoImplicit false

namespace CodeTidy

open Text

namespace Json

/-! ### White space around a line -/

/-- The marks of JSON are visible. -/
theorem isBlank_of_isMark {c : Char} (h : isMark c = true) : isBlank c = false := by
  rw [isMark, Bool.or_eq_true] at h
  rcases h with hdigit | hother
  · rw [Char.isDigit, Bool.and_eq_true, decide_eq_true_eq, decide_eq_true_eq] at hdigit
    have hle : 48 ≤ c.toNat := hdigit.1
    have hle' : c.toNat ≤ 57 := hdigit.2
    simp only [isBlank, if_pos (show c.toNat < 128 by omega), Bool.or_eq_false_iff,
      beq_eq_false_iff_ne, Bool.and_eq_false_iff, decide_eq_false_iff_not]
    omega
  · have hall : "+-.,:[]\x7b\x7deEnulltruefalsNIity".toList.all (fun c => !isBlank c) = true := by
      decide
    rw [List.contains_iff_mem] at hother
    simpa using List.all_eq_true.mp hall c hother

/-- White space in front of a lexed text is that of JSON. -/
theorem Lexed.of_blanks {s t : Text} (hs : s.all isBlank = true) (h : Lexed (s ++ t)) :
    s.all isSpace = true ∧ Lexed t := by
  induction s with
  | nil => exact ⟨rfl, h⟩
  | cons c s ih =>
    rw [List.all_cons, Bool.and_eq_true] at hs
    rcases h.cases with ⟨hc, -⟩ | ⟨hc, h⟩ | ⟨rfl, -⟩
    · rw [isBlank_of_isMark hc] at hs
      cases hs.1
    · obtain ⟨hspace, ht⟩ := ih hs.2 h
      exact ⟨by rw [List.all_cons, hc, hspace]; rfl, ht⟩
    · cases hs.1

/-- The last character of a lexed text, if it ends no string. -/
theorem Lexed.of_concat {t : Text} (h : Lexed t) {b : Text} {c : Char} (ht : t = b ++ [c])
    (hc : c ≠ '"') : Lexed b ∧ (isMark c = true ∨ isSpace c = true) := by
  induction h generalizing b with
  | nil => simp at ht
  | @mark a t ha h ih =>
    cases b with
    | nil =>
      obtain ⟨rfl, rfl⟩ := List.cons.inj ht
      exact ⟨.nil, .inl ha⟩
    | cons d b =>
      obtain ⟨rfl, htail⟩ := List.cons.inj ht
      obtain ⟨hb, hkind⟩ := ih htail
      exact ⟨.mark ha hb, hkind⟩
  -- A string ends with its quote. If something stands behind it, the last character is there.
  | @string body t hbody h ih =>
    rcases List.eq_nil_or_concat t with rfl | ⟨t', d, rfl⟩
    · rw [← List.cons_append] at ht
      exact absurd (List.cons.inj (List.append_inj_right' ht rfl)).1.symm hc
    · have hsplit : '"' :: (body ++ '"' :: (t' ++ [d])) = '"' :: (body ++ '"' :: t') ++ [d] := by
        simp
      rw [List.concat_eq_append, hsplit] at ht
      obtain ⟨rfl, hlast⟩ := List.append_inj' ht rfl
      obtain rfl := (List.cons.inj hlast).1
      obtain ⟨hb, hkind⟩ := ih (List.concat_eq_append)
      exact ⟨.string hbody hb, hkind⟩
  | @space a t ha h ih =>
    cases b with
    | nil =>
      obtain ⟨rfl, rfl⟩ := List.cons.inj ht
      exact ⟨.nil, .inr ha⟩
    | cons d b =>
      obtain ⟨rfl, htail⟩ := List.cons.inj ht
      obtain ⟨hb, hkind⟩ := ih htail
      exact ⟨.space ha hb, hkind⟩

/-- White space behind a lexed text is that of JSON. -/
theorem Lexed.of_blanks_behind {s b : Text} (hs : s.all isBlank = true) (h : Lexed (b ++ s)) :
    s.all isSpace = true ∧ Lexed b := by
  induction s using List.reverseRecOn with
  | nil => exact ⟨rfl, by rwa [List.append_nil] at h⟩
  | append_singleton s c ih =>
    rw [List.all_append, Bool.and_eq_true] at hs
    have hc : isBlank c = true := by simpa using hs.2
    have hquote : c ≠ '"' := by
      rintro rfl
      cases hc
    obtain ⟨hb, hkind⟩ := h.of_concat (List.append_assoc b s [c]).symm hquote
    obtain ⟨hspace, hb⟩ := ih hs.1 hb
    refine ⟨?_, hb⟩
    rcases hkind with hmark | hspace'
    · rw [isBlank_of_isMark hmark] at hc
      cases hc
    · rw [List.all_append, hspace, List.all_cons, hspace']
      rfl

/-- A line of a lexed text without the white space around it. -/
theorem exists_trim {l : Text} (h : Lexed l) : ∃ s s', l = s ++ (trim l ++ s') ∧
    s.all isSpace = true ∧ s'.all isSpace = true ∧ Lexed (trim l) := by
  obtain ⟨s, s', hsplit, hs, hs'⟩ := exists_blanks_around l
  obtain ⟨hspace, hrest⟩ := Lexed.of_blanks hs (hsplit ▸ h)
  obtain ⟨hspace', hbody⟩ := Lexed.of_blanks_behind hs' hrest
  exact ⟨s, s', hsplit, hspace, hspace', hbody⟩

/-- No string goes beyond its line, so a line and what comes behind it are lexed. -/
theorem Lexed.of_line {t : Text} (h : Lexed t) {l r : Text} (ht : t = l ++ '\n' :: r)
    (hl : '\n' ∉ l) : Lexed l ∧ Lexed r := by
  induction h generalizing l with
  | nil => simp at ht
  | @mark a t ha _ ih =>
    cases l with
    | nil =>
      obtain ⟨rfl, -⟩ := List.cons.inj ht
      cases ha
    | cons d l =>
      obtain ⟨rfl, htail⟩ := List.cons.inj ht
      obtain ⟨hline, hrest⟩ := ih htail (fun h => hl (List.mem_cons_of_mem _ h))
      exact ⟨.mark ha hline, hrest⟩
  | @string body t hbody _ ih =>
    have heq : '"' :: (body ++ ['"']) ++ t = l ++ '\n' :: r := by
      rw [← ht]
      simp
    -- No line feed stands in the string, so that the line ends behind it.
    obtain ⟨z, rfl, hz⟩ := exists_of_append_eq hbody.not_mem_line heq
    obtain ⟨hline, hrest⟩ := ih hz (fun h => hl (List.mem_append_right _ h))
    refine ⟨?_, hrest⟩
    simpa using Lexed.string hbody hline
  | @space a t ha h ih =>
    cases l with
    | nil =>
      obtain ⟨rfl, rfl⟩ := List.cons.inj ht
      exact ⟨.nil, h⟩
    | cons d l =>
      obtain ⟨rfl, htail⟩ := List.cons.inj ht
      obtain ⟨hline, hrest⟩ := ih htail (fun h => hl (List.mem_cons_of_mem _ h))
      exact ⟨.space ha hline, hrest⟩

end Json

namespace Generic

open Json

/-! ### The last pass -/

/-- White space may be laid out anew, but none is put where there was none. -/
theorem relaid_spaces {s s' : Text} (hs : s.all isSpace = true) (hs' : s'.all isSpace = true)
    (hne : s = [] → s' = []) : Relaid s s' := by
  cases s with
  | nil =>
    rw [hne rfl]
    exact .nil
  | cons c s =>
    have h := Relaid.space (List.cons_ne_nil c s) hs hs' .nil
    rwa [List.append_nil, List.append_nil] at h

/-- A line with other white space around it. White space may only come where there was some. -/
theorem relaid_line {l s s' : Text} (hl : Lexed l) (hs : s.all isSpace = true)
    (hs' : s'.all isSpace = true) (hne : s = [] → s' = []) : Relaid (s ++ l) (s' ++ trim l) := by
  obtain ⟨front, back, hsplit, hfront, hback, hbody⟩ := exists_trim hl
  have hall : (s ++ front).all isSpace = true := by
    rw [List.all_append, hs, hfront]
    rfl
  have hgone : Relaid back [] := relaid_spaces hback rfl (fun _ => rfl)
  have hbehind := hbody.relaid.append hgone
  rw [List.append_nil] at hbehind
  have hrelaid := (relaid_spaces hall hs' (fun h => hne (List.append_eq_nil_iff.mp h).1)).append
    hbehind
  rw [List.append_assoc, ← hsplit] at hrelaid
  exact hrelaid

/-- Lines are indented anew, behind white space `s` or at depth zero. -/
theorem relaid_indentLines {t s : Text} (ht : Lexed t) (hs : s.all isSpace = true) (depth : Nat)
    (hdepth : s = [] → depth = 0) :
    Relaid (s ++ t) (s ++ unlines (indentLines depth (lines t))) := by
  -- The margins that are written are white space, as those that are dropped.
  have hspaces (n : Nat) : (s ++ List.replicate n ' ').all isSpace = true := by
    rw [List.all_append, hs, List.all_replicate]
    simp [isSpace]
  induction t using lines_induction generalizing s depth with
  | one l hl =>
    obtain ⟨n, depth', hzero, -, hlines⟩ := exists_indentLines depth l
    have hrelaid := relaid_line ht hs (hspaces n) (fun h => by rw [h, hzero (hdepth h)]; rfl)
    rw [List.append_assoc] at hrelaid
    rw [lines_eq_singleton hl, hlines l [] rfl, indentLines, unlines_singleton]
    exact hrelaid
  -- The line feed belongs to the lines behind it, which are at no depth by accident.
  | more l r hl ih =>
    obtain ⟨hline, hrest⟩ := ht.of_line rfl hl
    obtain ⟨n, depth', hzero, -, hlines⟩ := exists_indentLines depth l
    have hfirst := relaid_line hline hs (hspaces n) (fun h => by rw [h, hzero (hdepth h)]; rfl)
    have hbehind := ih (s := ['\n']) hrest rfl depth' (fun h => by cases h)
      (fun n => by rw [List.all_append, List.all_replicate]; simp [isSpace])
    have hrelaid := hfirst.append hbehind
    rw [lines_append hl, hlines l (lines r) rfl, unlines_cons _ (indentLines_ne_nil depth' r)]
    simpa using hrelaid

/-- The last pass relays lexed texts. -/
theorem relaid_reindent {t : Text} (ht : Lexed t) : Relaid t (reindent t) := by
  rw [reindent]
  split
  · exact relaid_indentLines (s := []) ht rfl 0 (fun _ => rfl)
  · exact ht.relaid

/-! ### All passes -/

/-- The formatter relays lexed texts. -/
theorem relays_format {t : Text} (ht : Lexed t) : Relays t (format t) := by
  have hfirst : Relaid t (trailingBlanks.replace (fun _ => []) t) :=
    relaid_replace isLineSpace_trailingBlanks (Pattern.isSolid_spec rfl) (fun _ => rfl) ht
  have hsecond := relaid_replace (f := fun _ => "\n\n".toList) isLineSpace_blankLines
    (Pattern.isSolid_spec rfl) (fun _ => rfl) hfirst.lexed
  rw [format, spaceOperators_eq_self hsecond.lexed]
  exact ((Relation.ReflTransGen.single hfirst).tail hsecond).tail (relaid_reindent hsecond.lexed)

/-- What was parsed is parsed as the same value after it was formatted. -/
theorem format_keeps_json_value {t : Text} {v : Json} (h : parse t = .ok v) :
    parse (format t) = .ok v :=
  parse_relays (relays_format (lexed_of_parse h)) h

/-- The theorem at a list on lines of its own, with an equals sign in a string and blank lines
behind it. -/
theorem format_keeps_list_value :
    parse ((Json.array [.string "a=b"]).write JsonStyle.notebook ++ "\n\n\n".toList) =
      .ok (.array [.string "a=b"]) ∧
    parse (format ((Json.array [.string "a=b"]).write JsonStyle.notebook ++ "\n\n\n".toList)) =
      .ok (.array [.string "a=b"]) := by
  have hfits : Fits maxNesting (.array [.string "a=b"]) := ⟨by decide, trivial, trivial⟩
  have hspace : "\n\n\n".toList.all isSpace = true := rfl
  have hparse := parse_write JsonStyle.notebook hfits hspace
  exact ⟨hparse, format_keeps_json_value hparse⟩

end Generic

/-! ### White space only -/

namespace Generic

open Pattern Text

/-! ### The passes -/

/-- The white space of JSON is white space. -/
theorem all_isBlank_of_isSpace {s : Text} (h : s.all Json.isSpace = true) :
    s.all isBlank = true := by
  rw [List.all_eq_true] at h ⊢
  intro c hc
  have hspace := h c hc
  simp only [Json.isSpace, Bool.or_eq_true, beq_iff_eq] at hspace
  rcases hspace with ((rfl | rfl) | rfl) | rfl <;> rfl

/-- White space at the ends of lines may become other white space. -/
theorem nonBlank_replace_lineSpace {p : Pattern} (hp : IsLineSpace p) (hsolid : IsSolid p)
    {f : Match → Text} (hf : ∀ m, (f m).all isBlank = true) (t : Text) :
    nonBlank (p.replace f t) = nonBlank t := by
  refine filter_replace hsolid (fun v m hm => ?_)
  obtain ⟨u, -, hu, hspace, -⟩ := hp m.start m hm.2
  have htext : nonBlank m.text = [] := by
    rw [Match.text_of_reads hu, nonBlank_eq_nil (all_isBlank_of_isSpace hspace)]
  exact (nonBlank_eq_nil (hf m)).trans htext.symm

/-- Signs keep their characters when they are spaced. -/
theorem nonBlank_spaceOperators (t : Text) : nonBlank (spaceOperators t) = nonBlank t :=
  filter_spaceOperators (fun _ hc => by rw [isBlank_of_isIndent hc]; rfl) t

/-- Lines show what each of them shows. -/
theorem nonBlank_unlines (ls : List Text) : nonBlank (unlines ls) = (ls.map nonBlank).flatten := by
  induction ls with
  | nil => rfl
  | cons l ls ih =>
    obtain _ | ⟨l', ls⟩ := ls
    · rw [unlines_singleton, List.map_singleton, List.flatten_singleton]
    · rw [unlines_cons l (List.cons_ne_nil l' ls), nonBlank_append, nonBlank_cons_blank rfl, ih,
        List.map_cons (a := l), List.flatten_cons]

/-- Lines that are indented anew keep their visible characters. -/
theorem nonBlank_indentLines (depth : Nat) (t : Text) :
    nonBlank (unlines (indentLines depth (lines t))) = nonBlank t := by
  rw [nonBlank_unlines, map_nonBlank_indentLines, ← nonBlank_unlines, unlines_lines]

/-- To indent changes no visible character. -/
theorem nonBlank_reindent (t : Text) : nonBlank (reindent t) = nonBlank t := by
  rw [reindent]
  split
  · exact nonBlank_indentLines 0 t
  · rfl

/-! ### All passes -/

/-- The formatted text has the same visible characters as the text before. -/
theorem format_keeps_nonBlank (t : Text) : nonBlank (format t) = nonBlank t := by
  rw [format, nonBlank_reindent, nonBlank_spaceOperators,
    nonBlank_replace_lineSpace isLineSpace_blankLines (isSolid_spec rfl) (fun _ => rfl),
    nonBlank_replace_lineSpace isLineSpace_trailingBlanks (isSolid_spec rfl) (fun _ => rfl)]

end Generic

end CodeTidy
