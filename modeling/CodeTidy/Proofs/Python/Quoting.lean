import CodeTidy.Proofs.Python.FString
import Mathlib.Data.List.Infix

/-!
# `CodeTidy.Proofs.Python.Quoting`: where an f-string has its quote

The quote that an f-string begins with ends it as soon as it comes again, also in
the middle of an expression. The rules for the `%` operator and for the `format`
method look at the values and leave a match alone if one of them holds that quote.
The rule for the concatenation does not look. The theorems:

* `IsQuoted.isWellQuoted_iff`: what is put between the quotes decides.
* `percentToFString_isWellQuoted`, `formatToFString_isWellQuoted`: the rules that look.
* `concatenationToFString_isWellQuoted_iff`: the rule that does not.
* `fStrings_wellQuoted_iff`: the three rules, for every text.
-/

set_option autoImplicit false

namespace CodeTidy.Python

open Pattern Text

/-- The text is an f-string that holds its quote as its first and its last one only. -/
def IsWellQuoted (o : Text) : Prop :=
  ∃ q inner, isQuote q = true ∧ o = 'f' :: q :: (inner ++ [q]) ∧ q ∉ inner

/-- A text holds another one of one character exactly if that is among its characters. -/
theorem holds_singleton_iff {t : Text} {c : Char} : holds t [c] = true ↔ c ∈ t := by
  rw [holds_iff, List.singleton_infix_iff]

/-- There are two quotes in Python. -/
theorem isQuote_iff {q : Char} : isQuote q = true ↔ q = '"' ∨ q = '\'' := by
  rw [isQuote, Bool.or_eq_true, beq_iff_eq, beq_iff_eq]

variable {m : Match}

/-- What a rule puts between the quotes of a match must not hold that quote. -/
theorem IsQuoted.isWellQuoted_iff (h : IsQuoted m) (filled : Text) :
    IsWellQuoted ("f" ++ m.group 1 ++ filled ++ m.group 1) ↔ holds filled (m.group 1) = false := by
  obtain ⟨q, u', hq, -, hgroup⟩ := h.exists_quote
  rw [hgroup, ← Bool.not_eq_true, holds_singleton_iff]
  constructor
  · rintro ⟨q', inner, -, ho, hinner⟩
    have ho' : 'f' :: q :: (filled ++ [q]) = 'f' :: q' :: (inner ++ [q']) := by simpa using ho
    simp only [List.cons.injEq, true_and] at ho'
    obtain ⟨rfl, ho'⟩ := ho'
    rwa [List.append_cancel_right ho']
  · intro hfilled
    exact ⟨q, filled, hq, by simp, hfilled⟩

/-- A text without the two quotes holds no quote. -/
theorem not_mem_of_isQuote {u : Text} (hdouble : '"' ∉ u) (hsingle : '\'' ∉ u) {q : Char}
    (hq : isQuote q = true) : q ∉ u := by
  rcases isQuote_iff.mp hq with rfl | rfl
  · exact hdouble
  · exact hsingle

section

variable {t v : Text}

/-- The body of a match holds neither of the two quotes. -/
theorem not_mem_body_percent (h : MatchesBehind percentFormat t v m) {q : Char}
    (hq : isQuote q = true) : q ∉ m.group 2 := by
  obtain ⟨-, -, -, -, -, ⟨e, hbody⟩, -⟩ := exists_groups_of_spells (by decide) (by decide)
    (.right rfl (.right rfl (.right rfl (.right rfl .group)))) h.spells
  exact not_mem_of_isQuote (hbody.not_mem (by decide)) (hbody.not_mem (by decide)) hq

/-- The body of a match of `formatCall` holds no quote. -/
theorem not_mem_body_format (h : MatchesBehind formatCall t v m) {q : Char}
    (hq : isQuote q = true) : q ∉ m.group 2 := by
  obtain ⟨-, -, -, -, -, ⟨e, hbody⟩, -⟩ := exists_groups_of_spells (by decide) (by decide)
    (.right rfl (.right rfl (.left .group rfl))) h.spells
  exact not_mem_of_isQuote (hbody.not_mem (by decide)) (hbody.not_mem (by decide)) hq

/-- The body of a match of `strConcatenation` holds no quote. -/
theorem not_mem_body_concatenation (h : MatchesBehind strConcatenation t v m) {q : Char}
    (hq : isQuote q = true) : q ∉ m.group 2 := by
  obtain ⟨-, -, -, -, -, ⟨e, hbody⟩, -⟩ := exists_groups_of_spells (by decide) (by decide)
    (.right rfl (.right rfl (.right rfl (.right rfl (.right rfl (.left .group rfl)))))) h.spells
  exact not_mem_of_isQuote (hbody.not_mem (by decide)) (hbody.not_mem (by decide)) hq

end

/-! ### The rules that look at the values -/

section

variable {t v : Text}

/-- What takes the place of a string with the `%` operator is well quoted. -/
theorem percentToFString_isWellQuoted (h : MatchesBehind percentFormat t v m)
    (hchange : percentToFString m ≠ m.text) : IsWellQuoted (percentToFString m) := by
  obtain ⟨q, u', hq, -, hgroup⟩ := (isQuoted_percent h).exists_quote
  obtain ⟨-, -, -, -, hvalues, hresult⟩ := percentToFString_of_ne hchange
  rw [hresult, (isQuoted_percent h).isWellQuoted_iff, hgroup, ← Bool.not_eq_true,
    holds_singleton_iff]
  intro hmem
  rcases List.mem_append.mp (replaceAll_subset (by decide) _ _ hmem) with hmem | hmem
  · exact not_mem_of_isQuote (by decide) (by decide) hq hmem
  · refine not_mem_fillConversions (not_mem_of_isQuote (by decide) (by decide) hq)
      (fun s hs hmem => ?_) (fun v hv hmem => ?_) hmem
    · exact not_mem_body_percent h hq (subset_of_mem_segments (isSolid_spec rfl) hs hmem)
    · rw [← holds_singleton_iff, ← hgroup, hvalues v hv] at hmem
      cases hmem

/-- What takes the place of a string with a call of `format` is well quoted. -/
theorem formatToFString_isWellQuoted (h : MatchesBehind formatCall t v m) {o : Text}
    (hok : formatToFString m = .ok o) (hchange : o ≠ m.text) : IsWellQuoted o := by
  obtain ⟨q, u', hq, -, hgroup⟩ := (isQuoted_format h).exists_quote
  obtain ⟨-, -, hparams, pieces, hpieces, -, rfl⟩ := formatToFString_of_ne hok hchange
  rw [(isQuoted_format h).isWellQuoted_iff, hgroup, ← Bool.not_eq_true, holds_singleton_iff]
  refine not_mem_filled (not_mem_of_isQuote (by decide) (by decide) hq) (not_mem_body_format h hq)
    (fun p hp hmem => ?_) hpieces
  rw [← holds_singleton_iff, ← hgroup, (hparams p hp).1] at hmem
  cases hmem

/-! ### The rule that does not -/

/-- What takes the place of a concatenation is well quoted exactly if the quote is not in the
value. -/
theorem concatenationToFString_isWellQuoted_iff (h : MatchesBehind strConcatenation t v m) :
    IsWellQuoted (concatenationToFString m) ↔ holds (m.group 3) (m.group 1) = false := by
  obtain ⟨q, u', hq, -, hgroup⟩ := (isQuoted_concatenation h).exists_quote
  have hbody := not_mem_body_concatenation h hq
  have hbraces : q ∉ "\x7b\x7d".toList := not_mem_of_isQuote (by decide) (by decide) hq
  have hshape : concatenationToFString m =
      "f" ++ m.group 1 ++ (m.group 2 ++ "\x7b" ++ m.group 3 ++ "\x7d") ++ m.group 1 := by
    simp [concatenationToFString]
  rw [hshape, (isQuoted_concatenation h).isWellQuoted_iff, hgroup, ← Bool.not_eq_true,
    ← Bool.not_eq_true, holds_singleton_iff, holds_singleton_iff]
  simp_all

end

/-- An f-string that takes the place of a match holds its quote at its two ends only, if it comes
from the `%` operator or from the `format` method. One that comes from a concatenation does exactly
if the value added holds no such quote. -/
theorem fStrings_wellQuoted_iff (t : Text) :
    (∀ m ∈ percentFormat.hits t, percentToFString m ≠ m.text →
      IsWellQuoted (percentToFString m)) ∧
    (∀ m ∈ formatCall.hits t, ∀ o, formatToFString m = .ok o → o ≠ m.text → IsWellQuoted o) ∧
    ∀ m ∈ strConcatenation.hits t,
      IsWellQuoted (concatenationToFString m) ↔ holds (m.group 3) (m.group 1) = false := by
  refine ⟨fun m hm hchange => ?_, fun m hm o hok hchange => ?_, fun m hm => ?_⟩
  · obtain ⟨v, hv⟩ := exists_matchesBehind_of_mem_hits (isSolid_spec rfl) hm
    exact percentToFString_isWellQuoted hv hchange
  · obtain ⟨v, hv⟩ := exists_matchesBehind_of_mem_hits (isSolid_spec rfl) hm
    exact formatToFString_isWellQuoted hv hok hchange
  · obtain ⟨v, hv⟩ := exists_matchesBehind_of_mem_hits (isSolid_spec rfl) hm
    exact concatenationToFString_isWellQuoted_iff hv

/-- A line with a match for each of the three rules. -/
def reportLine : Text :=
  "print('%s: %r' % (name, d[\"n\"]), '\x7b0:>3\x7d'.format(total), 'n=' + str(count))"

/-- No value on the line holds the quote of its string. -/
theorem fStrings_wellQuoted_reportLine :
    (∃ m ∈ percentFormat.hits reportLine, percentToFString m ≠ m.text ∧
      IsWellQuoted (percentToFString m)) ∧
    (∃ m ∈ formatCall.hits reportLine, ∃ o, formatToFString m = .ok o ∧ o ≠ m.text ∧
      IsWellQuoted o) ∧
    ∃ m ∈ strConcatenation.hits reportLine, holds (m.group 3) (m.group 1) = false ∧
      IsWellQuoted (concatenationToFString m) := by
  have hpercent :
    (percentFormat.hits reportLine).any (fun m => percentToFString m != m.text) = true := by
    decide +kernel
  have hformat : (formatCall.hits reportLine).any
      (fun m => (formatToFString m).toOption.any (· != m.text)) = true := by
    decide +kernel
  have hconcatenation : (strConcatenation.hits reportLine).any
      (fun m => !holds (m.group 3) (m.group 1)) = true := by
    decide +kernel
  -- Each of the three rules has a match on the line.
  obtain ⟨hwell, hwell', hiff⟩ := fStrings_wellQuoted_iff reportLine
  refine ⟨?_, ?_, ?_⟩
  · obtain ⟨m, hm, hchange⟩ := List.any_eq_true.mp hpercent
    rw [bne_iff_ne] at hchange
    exact ⟨m, hm, hchange, hwell m hm hchange⟩
  · obtain ⟨m, hm, hsome⟩ := List.any_eq_true.mp hformat
    obtain ⟨o, ho, hchange⟩ := (Option.any_eq_true _ _).mp hsome
    rw [bne_iff_ne] at hchange
    obtain ⟨o', hok, rfl⟩ := exists_eq_ok_of_toOption (f := id) (by rw [ho]; rfl)
    exact ⟨m, hm, o', hok, hchange, hwell' m hm o' hok hchange⟩
  · obtain ⟨m, hm, hholds⟩ := List.any_eq_true.mp hconcatenation
    rw [Bool.not_eq_true'] at hholds
    exact ⟨m, hm, hholds, (hiff m hm).mpr hholds⟩

/-- A value that is looked up with the quote of the string ends the f-string in its middle. -/
theorem concatenation_ends_early :
    strConcatenation.replace concatenationToFString "'rows: ' + str(d['n'])" =
      "f'rows: \x7bd['n']\x7d'" ∧
    ∃ m ∈ strConcatenation.hits "'rows: ' + str(d['n'])",
      ¬IsWellQuoted (concatenationToFString m) := by
  have hmatch : (strConcatenation.hits "'rows: ' + str(d['n'])").any
      (fun m => holds (m.group 3) (m.group 1)) = true := by
    decide +kernel
  obtain ⟨m, hm, hholds⟩ := List.any_eq_true.mp hmatch
  obtain ⟨v, hv⟩ := exists_matchesBehind_of_mem_hits (isSolid_spec rfl) hm
  refine ⟨by decide +kernel, m, hm, ?_⟩
  rw [concatenationToFString_isWellQuoted_iff hv, hholds]
  exact Bool.noConfusion

end CodeTidy.Python
