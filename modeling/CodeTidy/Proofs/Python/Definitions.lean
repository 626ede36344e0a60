import CodeTidy.Proofs.Constant.Definitions
import CodeTidy.Proofs.Pattern.Steps
import CodeTidy.Proofs.Python.FString
import CodeTidy.Proofs.Python.Loop
import CodeTidy.Proofs.Python.Statement
import CodeTidy.Python.Table

/-!
# `CodeTidy.Proofs.Python.Definitions`: the rules and definitions of constants

No rule for a cell writes a line that defines a constant. Most of them write one
line, with a letter that no such line holds. A comprehension may have more lines
than one, but the loop target is all that it is broken in. The lines of a body
stay indented. The other way round, a definition of a constant has nothing that a
rule looks for. The theorems:

* `Rule.keepsDefinitions_replacing`: a rule that replaces matches.
* `keeps_comprehends`, `keeps_toElementLoop`, `keeps_toWithBlock`: the rules that
  write more lines than one.
* `keepsDefinitions_cellRules`: the table.
* `cellRules_apply_eq_self`: texts that the rules leave alone.
-/

set_option autoImplicit false

namespace CodeTidy

open Pattern Text Constant

/-- No definition of a constant comes of the rule. -/
def Rule.KeepsDefinitions (r : Rule) : Prop :=
  ∀ t t', r.apply t = .ok t' → Constant.KeepsDefinitions t t'

/-- Rules that write no definitions, one after the other. -/
theorem RuleTable.keepsDefinitions_apply {table : RuleTable} (h : ∀ r ∈ table, r.KeepsDefinitions)
    {t t' : Text} (hok : table.apply t = .ok t') : Constant.KeepsDefinitions t t' :=
  apply_related keepsDefinitions_refl (fun _ _ _ => KeepsDefinitions.trans) h hok

namespace Pattern

/-- A replacement writes no definitions if none of what it puts in does. -/
theorem keepsDefinitions_replace {p : Pattern} (hp : IsSolid p) {f : Match → Text} {t : Text}
    (hf : ∀ v m, MatchesBehind p t v m → f m ≠ m.text → ∀ x,
      KeepsDefinitions (x ++ (m.text ++ m.stop.after)) (x ++ (f m ++ m.stop.after))) :
    KeepsDefinitions t (p.replace f t) :=
  replace_related hp keepsDefinitions_refl (fun _ _ _ => KeepsDefinitions.trans) hf

end Pattern

/-- A rule makes up no definition of a constant if no match of it does. -/
theorem Rule.keepsDefinitions_replacing (name : String) {p : Pattern} (hp : p.isSolid = true)
    {f : Match → Text} (hf : ∀ t v m, MatchesBehind p t v m → f m ≠ m.text → ∀ x,
      Constant.KeepsDefinitions (x ++ (m.text ++ m.stop.after)) (x ++ (f m ++ m.stop.after))) :
    (replacing name p f).KeepsDefinitions := by
  intro t t' hok
  cases hok
  exact keepsDefinitions_replace (isSolid_spec hp) (hf t)

namespace Python

/-! ### Formatted strings -/

/-- The prefix of a string makes up no definition. -/
theorem keeps_prefixed {u o : Text} (h : Prefixed u o) (y x : Text) :
    KeepsDefinitions (x ++ (u ++ y)) (x ++ (o ++ y)) := by
  obtain ⟨⟨q, u', o', -, -, ho⟩, hfeed⟩ := h
  refine keeps_line hfeed ?_ u y x
  have hf : isForeign 'f' = true := by decide
  rw [ho, List.any_cons, hf, Bool.true_or]

/-- The rules for strings make up no definition. -/
theorem keepsDefinitions_of_mem_fStringRules {r : Rule} (h : r ∈ fStringRules) :
    r.KeepsDefinitions := by
  intro t t' hok
  obtain ⟨rest, f, hsolid, rfl, hf⟩ := exists_replace_of_mem_fStringRules h hok
  exact keepsDefinitions_replace hsolid fun v m hm hne =>
    keeps_prefixed (hf v m hm hne) m.stop.after

/-! ### Loops -/

/-- A comprehension makes up no definition: its line holds a bracket. -/
theorem keeps_comprehends {u o : Text} (h : Comprehends u o) (y x : Text) :
    KeepsDefinitions (x ++ (u ++ y)) (x ++ (o ++ y)) := by
  obtain ⟨-, -, -, hassign, hhead, hopening, -, hit, hclosing, -⟩ := h
  rename_i a b names d k head opening it closing
  have hfor : isForeign 'f' = true := by decide
  have hin : isForeign 'i' = true := by decide
  have hfeed : '\n' ∉ head ++ (" = " ++ (opening ++ " for ")) := by simp [hhead, hopening]
  have hfeed' : '\n' ∉ " in " ++ (it ++ closing) := by simp [hit, hclosing]
  have hkeeps := keeps_lines hfeed (by simp [hfor]) hassign hfeed' (by simp [hin])
    (a ++ '\n' :: (b ++ (names ++ (d ++ '\n' :: k)))) y x
  simpa using hkeeps

/-- The lines of a body stay indented where an element of the sequence gets a name. -/
theorem isIndented_elementAt {sequence element t : Text} (index : Text)
    (helement : element.all isWord = true)
    (hsequence : sequence.all (CharSet.or isWord (CharSet.of ".")) = true)
    (h : isIndented true t = true) :
    isIndented true ((elementAt sequence index).replace (fun _ => element) t) = true ∧
      endsFresh true ((elementAt sequence index).replace (fun _ => element) t) =
        endsFresh true t := by
  refine replace_related (isSolid_elementAt sequence index)
    (R := fun a b => isIndented true a = true →
      isIndented true b = true ∧ endsFresh true b = endsFresh true a)
    (fun t ht => ⟨ht, rfl⟩) ?_ ?_ h
  · intro a b c hab hbc ha
    obtain ⟨hb, hfresh⟩ := hab ha
    obtain ⟨hc, hfresh'⟩ := hbc hb
    exact ⟨hc, hfresh'.trans hfresh⟩
  · intro v m hm _ x hx
    obtain ⟨s, s', -, -, hu⟩ := spells_elementAt hm.spells
    -- An element begins with no white space, so it stands where no line starts.
    obtain ⟨a, w, hw, ha⟩ : ∃ a w, m.text = a :: w ∧ isBlank a = false := by
      cases sequence with
      | nil => exact ⟨'[', _, hu, rfl⟩
      | cons a sequence =>
        rw [List.all_cons, Bool.and_eq_true] at hsequence
        refine ⟨a, _, hu, ?_⟩
        cases hblank : isBlank a with
        | false => rfl
        | true =>
          have hpart := hsequence.1
          rw [CharSet.or, isWord_of_isBlank hblank, Bool.false_or] at hpart
          obtain rfl : a = '.' := by simpa [CharSet.of] using hpart
          cases hblank
    have hlast : ∀ fresh, endsFresh fresh m.text = false := by
      intro fresh
      rw [hu]
      simp only [endsFresh_append]
      rfl
    have hfeed : '\n' ∉ element := not_mem_of_all helement (by decide)
    have hword : endsFresh false element = false := by
      cases hfresh : endsFresh false element with
      | false => rfl
      | true =>
        cases element with
        | nil => cases hfresh
        | cons b element => exact absurd (mem_of_endsFresh hfresh (List.cons_ne_nil b _)) hfeed
    rw [isIndented_append, isIndented_append, Bool.and_eq_true, Bool.and_eq_true, hlast] at hx
    obtain ⟨hbehind, hhere, hafter⟩ := hx
    have hmiddle : endsFresh true x = false := by
      rw [hw, isIndented, ha, Bool.or_false, Bool.and_eq_true, Bool.not_eq_true'] at hhere
      exact hhere.1
    rw [isIndented_append, isIndented_append, endsFresh_append, endsFresh_append, endsFresh_append,
      endsFresh_append, hlast, hmiddle, hword, hbehind, hafter, isIndented_of_not_mem hfeed]
    exact ⟨rfl, rfl⟩

/-- A loop over elements makes up no definition. -/
theorem keeps_toElementLoop {m : Match} (h : IsRangeLoop m) (hchange : toElementLoop m ≠ m.text)
    (y x : Text) : KeepsDefinitions (x ++ (m.text ++ y)) (x ++ (toElementLoop m ++ y)) := by
  obtain ⟨head, htext, -, -, -⟩ := h.exists_head
  obtain ⟨head', element, ho, helement, -, hlower, hfilter⟩ := exists_of_toElementLoop h hchange
  obtain ⟨hbody, hend⟩ := isIndented_elementAt (m.group 2) helement h.sequence h.body
  have hfeed : '\n' ∉ head' := by
    intro hmem
    have hkept : '\n' ∈ head'.filter makesLines := List.mem_filter.mpr ⟨hmem, rfl⟩
    rcases hfilter with hfilter | hfilter <;> rw [hfilter] at hkept <;> simp at hkept
  rw [ho]
  refine keeps_block hfeed (any_isForeign_of_isLower hlower) hbody ?_ y x
  intro hfresh
  rw [htext, endsFresh_append]
  exact hend ▸ hfresh

/-- The rules for loops make up no definition. -/
theorem keepsDefinitions_of_mem_loopRules {r : Rule} (h : r ∈ loopRules) : r.KeepsDefinitions := by
  simp only [loopRules, List.mem_cons, List.not_mem_nil, or_false] at h
  rcases h with rfl | rfl | rfl | rfl
  · exact Rule.keepsDefinitions_replacing _ rfl fun t v m hm _ =>
      keeps_comprehends (comprehends_filtered hm) m.stop.after
  · exact Rule.keepsDefinitions_replacing _ rfl fun t v m hm _ =>
      keeps_comprehends (comprehends_append hm) m.stop.after
  · exact Rule.keepsDefinitions_replacing _ rfl fun t v m hm _ =>
      keeps_comprehends (comprehends_item hm) m.stop.after
  · exact Rule.keepsDefinitions_replacing _ rfl fun t v m hm hne =>
      keeps_toElementLoop (isRangeLoop hm) hne m.stop.after

/-! ### Comparisons and files -/

/-- A block with an open file makes up no definition. -/
theorem keeps_toWithBlock {m : Match} (h : IsOpenAndClose m) (y x : Text) :
    KeepsDefinitions (x ++ (m.text ++ y)) (x ++ (toWithBlock m ++ y)) := by
  obtain ⟨first, last, htext, -, -⟩ := h.exists_parts
  obtain ⟨head, inner, ho, hfeed, hlower, hinner, hend, -⟩ := exists_of_toWithBlock h
  have hstop : isIndented false (m.group 5) = true := by
    rcases h.stop with hstop | ⟨hstop, -⟩ <;> rw [hstop] <;> rfl
  rw [ho]
  refine keeps_block hfeed (any_isForeign_of_isLower hlower) ?_ ?_ y x
  · rw [isIndented_append, hinner, hend, hstop]
    rfl
  · intro hfresh
    rw [endsFresh_append, hend] at hfresh
    rcases h.stop with hstop | ⟨hstop, -⟩
    · rw [htext, hstop]
      simp only [endsFresh_append, endsFresh]
      rfl
    · rw [hstop] at hfresh
      cases hfresh

/-- The rules for statements make up no definition. -/
theorem keepsDefinitions_of_mem_statementRules {r : Rule} (h : r ∈ statementRules) :
    r.KeepsDefinitions := by
  simp only [statementRules, List.mem_cons, List.not_mem_nil, or_false] at h
  rcases h with rfl | rfl | rfl | rfl | rfl | rfl
  · -- A condition holds a small letter, and so a line with one is no definition.
    refine Rule.keepsDefinitions_replacing _ rfl fun t v m hm _ => ?_
    obtain ⟨w, -, -, hfeed, hlower⟩ := exists_of_trueComparison hm
    exact keeps_line hfeed (any_isForeign_of_isLower hlower) m.text m.stop.after
  · refine Rule.keepsDefinitions_replacing _ rfl fun t v m hm _ => ?_
    obtain ⟨w, -, -, -, -, ⟨k, s, hgroup, hfeed, hlower, hassign⟩, hfeed', -⟩ :=
      exists_of_falseComparison hm
    have hnot : '\n' ∉ "not " ++ m.group 2 := by simp [hfeed']
    have hkeeps := keeps_lines hfeed (any_isForeign_of_isLower hlower) hassign hnot
      (any_isForeign_of_isLower (by simp)) m.text m.stop.after
    rw [hgroup]
    simpa using hkeeps
  · exact Rule.keepsDefinitions_replacing _ rfl fun t v m _ _ =>
      keeps_line (by decide) (by decide) m.text m.stop.after
  · exact Rule.keepsDefinitions_replacing _ rfl fun t v m _ _ =>
      keeps_line (by decide) (by decide) m.text m.stop.after
  · exact Rule.keepsDefinitions_replacing _ rfl fun t v m hm _ =>
      keeps_toWithBlock (isOpenAndClose hm) m.stop.after
  · exact Rule.keepsDefinitions_replacing _ rfl fun t v m _ _ =>
      keeps_line (by decide) (by decide) m.text m.stop.after

/-! ### The table -/

/-- The rules for a cell write no definitions of constants. -/
theorem keepsDefinitions_cellRules {t t' : Text} (h : cellRules.apply t = .ok t') :
    KeepsDefinitions t t' := by
  refine RuleTable.keepsDefinitions_apply (fun r hr => ?_) h
  rw [cellRules, List.mem_append, List.mem_append] at hr
  rcases hr with (hr | hr) | hr
  · exact keepsDefinitions_of_mem_fStringRules hr
  · exact keepsDefinitions_of_mem_loopRules hr
  · exact keepsDefinitions_of_mem_statementRules hr

/-! ### Texts that the rules leave alone -/

/-- Every match of a rule holds one of these. -/
def ruleWords : List Text :=
  ["%", ".format(", "str(", "[]", "\x7b\x7d", "range(", "==", "!=", "open(", "shell"]

/-- The rule leaves each text alone that holds none of the words of rules. -/
def Idles (r : Rule) : Prop := ∀ t, (∀ w ∈ ruleWords, ¬w <:+: t) → r.apply t = .ok t

/-- A rule does nothing on a text without a word that its pattern needs. -/
theorem idles_replacing (name : String) {p : Pattern} (hp : p.isSolid = true) {w : Text}
    (hw : w ∈ ruleWords) (hneeds : Needs w p) (f : Match → Text) :
    Idles (.replacing name p f) := by
  intro t ht
  have hnone : ∀ v m, ¬MatchesBehind p t v m := fun v m => hneeds.not_matchesBehind (ht w hw)
  exact congrArg Except.ok (replace_eq_self (isSolid_spec hp) fun v m hm => absurd hm (hnone v m))

/-- The head of a loop needs the empty collection. -/
theorem needs_accumulatorLoop (empty : String) : Needs empty.toList (accumulatorLoop empty) :=
  .right (.right (.right (.right (.right (.right (.left .text))))))

/-- Each rule for cells needs one of the words, so it does nothing on a text without any of them. -/
theorem idles_of_mem_cellRules {r : Rule} (h : r ∈ cellRules) : Idles r := by
  simp only [cellRules, fStringRules, loopRules, statementRules, List.mem_append, List.mem_cons,
    List.not_mem_nil, or_false] at h
  rcases h with ((rfl | rfl | rfl) | rfl | rfl | rfl | rfl) | rfl | rfl | rfl | rfl | rfl | rfl
  · exact idles_replacing _ rfl (w := "%") (by decide)
      (.right (.right (.right (.right (.left .text))))) _
  · intro t ht
    have hneeds : Needs ".format(" formatCall := .right (.right (.right (.left .text)))
    exact replaceM_eq_self _ (isSolid_spec rfl) fun v m =>
      hneeds.not_matchesBehind (ht _ (by decide))
  · exact idles_replacing _ rfl (w := "str(") (by decide)
      (.right (.right (.right (.right (.right (.right (.left .text))))))) _
  · exact idles_replacing _ rfl (w := "[]") (by decide) (.left (needs_accumulatorLoop "[]")) _
  · exact idles_replacing _ rfl (w := "[]") (by decide) (.left (needs_accumulatorLoop "[]")) _
  · exact idles_replacing _ rfl (w := "\x7b\x7d") (by decide)
      (.left (needs_accumulatorLoop "\x7b\x7d")) _
  · exact idles_replacing _ rfl (w := "range(") (by decide) (.right (.right (.right (.right
      (.right (.right (.right (.right (.left .text))))))))) _
  · exact idles_replacing _ rfl (w := "==") (by decide) (.right (.right (.right (.left .text)))) _
  · exact idles_replacing _ rfl (w := "==") (by decide)
      (.right (.right (.right (.right (.left .text))))) _
  · exact idles_replacing _ rfl (w := "==") (by decide) (.right (.left .text)) _
  · exact idles_replacing _ rfl (w := "!=") (by decide) (.right (.left .text)) _
  · exact idles_replacing _ rfl (w := "open(") (by decide)
      (.right (.right (.right (.right (.right (.right (.left .text))))))) _
  · exact idles_replacing _ rfl (w := "shell") (by decide) (.right (.left .text)) _

/-- The rules for a cell leave a text alone that holds none of their words. -/
theorem cellRules_apply_eq_self {t : Text} (h : ∀ w ∈ ruleWords, ¬w <:+: t) :
    cellRules.apply t = .ok t := by
  have htable : ∀ table : RuleTable, (∀ r ∈ table, Idles r) → table.apply t = .ok t := by
    intro table hall
    induction table with
    | nil => rfl
    | cons r table ih =>
      rw [List.forall_mem_cons] at hall
      rw [RuleTable.apply, List.foldlM_cons, hall.1 t h]
      exact ih hall.2
  exact htable cellRules fun r => idles_of_mem_cellRules

end Python

end CodeTidy
