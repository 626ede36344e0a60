import CodeTidy.Proofs.Pattern.Spells
import CodeTidy.Proofs.Pattern.Steps
import CodeTidy.Proofs.Text.Gauge
import CodeTidy.Proofs.Text.Pieces
import CodeTidy.Python.FString

/-!
# `CodeTidy.Proofs.Python.FString`: what an f-string takes the place of

Each of the rules for formatted strings leaves a match alone, or puts an
f-string on one line in its place: an `f`, and then the quote that the match
begins with. The theorems:

* `IsQuoted.prefixed`: what such a rule does to a match.
* `percentToFString_of_ne`, `formatToFString_of_ne`: what the rules check first.
* `percentToFString_prefixed`, `formatToFString_prefixed`,
  `concatenationToFString_prefixed`: the three rules do that.
* `exists_replace_of_mem_fStringRules`: what the rules have in common.
-/

set_option autoImplicit false

namespace CodeTidy

open Text

namespace Python

open Pattern

/-! ### The shape of the rules -/

/-- The text begins with a quote, and what takes its place is an f-string on one line that begins
with the same quote. -/
structure Prefixed (u o : Text) : Prop where
  exists_quote : ∃ q u' o', isQuote q = true ∧ u = q :: u' ∧ o = 'f' :: q :: o'
  not_mem_feed : '\n' ∉ o

/-- What the matches of the rules have in common: a quote, a body and arguments, none of them on
more than one line. -/
structure IsQuoted (m : Match) : Prop where
  exists_quote : ∃ q u', isQuote q = true ∧ m.text = q :: u' ∧ m.group 1 = [q]
  body : '\n' ∉ m.group 2
  args : '\n' ∉ m.group 3

/-- An f-string with the quote of the match. -/
theorem IsQuoted.prefixed {m : Match} (h : IsQuoted m) {filled : Text} (hfilled : '\n' ∉ filled) :
    Prefixed m.text ("f" ++ m.group 1 ++ filled ++ m.group 1) := by
  obtain ⟨q, u', hq, htext, hgroup⟩ := h.exists_quote
  have hfeed : '\n' ≠ q := by
    rintro rfl
    cases hq
  rw [hgroup]
  refine ⟨⟨q, u', filled ++ [q], hq, htext, by simp⟩, ?_⟩
  simp [hfeed, hfilled]

/-- What opens a string is a quote. -/
theorem isQuote_of_opening {q : Char} (h : CharSet.of "'\"" q = true) : isQuote q = true := by
  have hmem : q ∈ "'\"".toList := by simpa [CharSet.of] using h
  have hquotes : "'\"".toList.all isQuote = true := by decide
  exact List.all_eq_true.mp hquotes q hmem

/-- A match of a pattern that begins with a quote and a body, and remembers arguments behind them:
what its three groups are. -/
theorem exists_groups_of_spells {body args rest : Pattern} (hbody : body.isGroupless = true)
    (hargs : args.isGroupless = true) (hrest : Remembers 3 args rest) {m : Match}
    (h : Spells (.both openingQuote (.both (.group 2 body) rest)) [] m.text (textsOf m.groups)) :
    ∃ q u', isQuote q = true ∧ m.text = q :: u' ∧ m.group 1 = [q] ∧
      (∃ e, Spells body e (m.group 2) e) ∧ ∃ e, Spells args e (m.group 3) e := by
  obtain ⟨u₁, e₁, hopening, u₂, htext, u₃, e₂, ⟨e₃, hspells, rfl⟩, u₄, -, hspells'⟩ := h
  simp only [openingQuote, notAfter, spells_place_then, spells_seq_one, spells_group,
    spells_one] at hopening
  obtain ⟨e₄, ⟨q, hq, rfl, rfl⟩, rfl⟩ := hopening
  obtain rfl := hspells.groups_eq hbody
  obtain ⟨w, -, hw, hgroups⟩ := hrest.exists_spells hargs hspells'
  simp only [group_eq, hgroups]
  exact ⟨q, u₂, isQuote_of_opening hq, htext.symm, rfl, ⟨_, hspells⟩, _, hw⟩

/-- The matches of a pattern that begins with a quote and a body on one line, and remembers
arguments on one line behind them. -/
theorem isQuoted_of_spells {body args rest : Pattern} (hbody : body.avoids '\n' = true)
    (hbody' : body.isGroupless = true) (hargs : args.avoids '\n' = true)
    (hargs' : args.isGroupless = true) (hrest : Remembers 3 args rest) {m : Match}
    (h : Spells (.both openingQuote (.both (.group 2 body) rest)) [] m.text (textsOf m.groups)) :
    IsQuoted m := by
  obtain ⟨q, u', hq, htext, hgroup, ⟨e, hspells⟩, e', hspells'⟩ :=
    exists_groups_of_spells hbody' hargs' hrest h
  exact ⟨⟨q, u', hq, htext, hgroup⟩, hspells.not_mem hbody, hspells'.not_mem hargs⟩

section

variable {t v : Text} {m : Match}

/-- What the rule for `%` matches begins with a string in quotes. -/
theorem isQuoted_percent (h : MatchesBehind percentFormat t v m) : IsQuoted m :=
  isQuoted_of_spells (by decide) (by decide) (by decide) (by decide)
    (.right rfl (.right rfl (.right rfl (.right rfl .group)))) h.spells

/-- What the rule for `format` matches begins with a string in quotes. -/
theorem isQuoted_format (h : MatchesBehind formatCall t v m) : IsQuoted m :=
  isQuoted_of_spells (by decide) (by decide) (by decide) (by decide)
    (.right rfl (.right rfl (.left .group rfl))) h.spells

/-- What the rule for `str` matches begins with a string in quotes. -/
theorem isQuoted_concatenation (h : MatchesBehind strConcatenation t v m) : IsQuoted m :=
  isQuoted_of_spells (by decide) (by decide) (by decide) (by decide)
    (.right rfl (.right rfl (.right rfl (.right rfl (.right rfl (.left .group rfl)))))) h.spells

end

/-! ### The `%` operator -/

/-- What is not in the values, nor in the pieces of the format string, is not in the result. -/
theorem not_mem_fillConversions {a : Char} (ha : a ∉ "\x7b!r\x7d".toList) {segments : List Segment}
    {values : List Text} (hsegments : ∀ s ∈ segments, a ∉ s.text) (hvalues : ∀ v ∈ values, a ∉ v) :
    a ∉ fillConversions segments values := by
  -- A field adds a brace on either side, and a conversion.
  have hfield : ∀ spec value : Text, a ∉ value → a ∉ percentField spec value := by
    intro spec value hvalue
    rw [percentField]
    split <;> simp_all
  induction segments generalizing values with
  | nil => exact List.not_mem_nil
  | cons s segments ih =>
    rw [List.forall_mem_cons] at hsegments
    have hrest := fun values hvalues => @ih values hsegments.2 hvalues
    cases s with
    | gap t =>
      rw [fillConversions, List.mem_append, not_or]
      exact ⟨hsegments.1, hrest values hvalues⟩
    | hit m =>
      cases values with
      | nil =>
        rw [fillConversions, List.mem_append, not_or]
        exact ⟨hsegments.1, hrest [] hvalues⟩
      | cons value values =>
        rw [List.forall_mem_cons] at hvalues
        rw [fillConversions, List.mem_append, not_or]
        exact ⟨hfield _ _ hvalues.1, hrest values hvalues.2⟩

/-- An argument is made of the characters of the list. -/
theorem subset_of_mem_percentArguments {args v : Text} (h : v ∈ percentArguments args) :
    v ⊆ args := by
  rw [percentArguments] at h
  split at h
  · refine List.Subset.trans (subset_of_mem_splitParams h) ?_
    exact List.Subset.trans (List.dropLast_subset _) (List.drop_subset 1 args)
  · rw [List.mem_singleton.mp h]
    exact List.Subset.refl args

/-- The rule for the `%` operator leaves a match alone, or it has checked the format string and the
values and fills these in. -/
theorem percentToFString_of_ne {m : Match} (h : percentToFString m ≠ m.text) :
    '\x7b' ∉ m.group 2 ∧ '\x7d' ∉ m.group 2 ∧ otherPercent.occursIn (m.group 2) = false ∧
      (percentArguments (m.group 3)).length = percentSpec.count (m.group 2) ∧
      (∀ v ∈ percentArguments (m.group 3), holds v (m.group 1) = false) ∧
      percentToFString m = "f" ++ m.group 1 ++ replaceAll "%%" "%"
        (fillConversions (percentSpec.segments (m.group 2)) (percentArguments (m.group 3))) ++
          m.group 1 := by
  simp only [percentToFString] at h ⊢
  split at h
  · exact absurd rfl h
  · next hbody =>
    split at h
    · exact absurd rfl h
    · next hvalues =>
      rw [if_neg hbody, if_neg hvalues]
      simp only [Bool.or_eq_true, not_or, List.contains_iff_mem, Bool.not_eq_true] at hbody
      simp only [Bool.or_eq_true, not_or, decide_eq_true_eq, not_not, Bool.not_eq_true,
        List.any_eq_false] at hvalues
      exact ⟨hbody.1.1, hbody.1.2, hbody.2, hvalues.1, hvalues.2, rfl⟩

/-- The rule for `%` puts a prefix in front of the string, and leaves it on one line. -/
theorem percentToFString_prefixed {m : Match} (h : IsQuoted m)
    (hchange : percentToFString m ≠ m.text) : Prefixed m.text (percentToFString m) := by
  obtain ⟨-, -, -, -, -, hresult⟩ := percentToFString_of_ne hchange
  rw [hresult]
  refine h.prefixed fun hmem => ?_
  rcases List.mem_append.mp (replaceAll_subset (by decide) _ _ hmem) with hmem | hmem
  · revert hmem
    decide
  · refine not_mem_fillConversions (by decide) (fun s hs hmem => ?_) (fun v hv hmem => ?_) hmem
    · exact h.body (subset_of_mem_segments (isSolid_spec rfl) hs hmem)
    · exact h.args (subset_of_mem_percentArguments hv hmem)

/-! ### The `format` method -/

/-- The values of the arguments of a `format` call. -/
def FormatArguments.values (args : FormatArguments) : List Text :=
  args.positional ++ args.keywords.map Prod.snd

/-- A value that has been collected was there before or comes of one of the parameters. -/
theorem exists_of_mem_foldl {step : FormatArguments → Text → FormatArguments}
    (hstep : ∀ args param, ∀ v ∈ (step args param).values, v ∈ args.values ∨ v ⊆ param)
    {params : List Text} {args : FormatArguments} {v : Text}
    (h : v ∈ (params.foldl step args).values) : v ∈ args.values ∨ ∃ param ∈ params, v ⊆ param := by
  induction params generalizing args with
  | nil => exact .inl h
  | cons param params ih =>
    rcases ih h with hv | ⟨param', hmem, hsubset⟩
    · rcases hstep args param v hv with hv | hsubset
      · exact .inl hv
      · exact .inr ⟨param, List.mem_cons_self, hsubset⟩
    · exact .inr ⟨param', List.mem_cons_of_mem param hmem, hsubset⟩

/-- The value of each argument stands in a parameter. -/
theorem FormatArguments.exists_of_mem_values {params : List Text} {v : Text}
    (h : v ∈ (ofParams params).values) : ∃ param ∈ params, v ⊆ param := by
  -- An argument by position is the whole parameter, one by name a part of it.
  have hpositional : ∀ (args : FormatArguments) (param v : Text),
      v ∈ ({ args with positional := args.positional ++ [param] } : FormatArguments).values →
        v ∈ args.values ∨ v ⊆ param := by
    intro args param v hv
    simp only [values, List.mem_append, List.mem_singleton] at hv ⊢
    rcases hv with (hv | rfl) | hv
    · exact .inl (.inl hv)
    · exact .inr (List.Subset.refl v)
    · exact .inl (.inr hv)
  rw [ofParams] at h
  have hfold := exists_of_mem_foldl (fun args param v hv => ?_) h
  · rcases hfold with hv | hparam
    · cases hv
    · exact hparam
  · split at hv
    · next key value hcut =>
      dsimp only at hv
      split at hv
      · simp only [values, List.map_cons, List.mem_append, List.mem_cons] at hv ⊢
        rcases hv with hv | rfl | hv
        · exact .inl (.inl hv)
        · exact .inr (List.Subset.trans (trim_subset value) (cutAt?_subset hcut))
        · exact .inl (.inr hv)
      · exact hpositional args param v hv
    · exact hpositional args param v hv

/-- The argument for a field with the given name; `next` is the position of the argument for a field
without one. -/
def FormatArguments.select (args : FormatArguments) (next : Nat) (name : Text) : Option Text :=
  if name.isEmpty then args.positional[next]?
  else if name.all isDigitSign then (fieldNumber name).toOption.bind (args.positional[·]?)
  else args.keywords.lookup name

/-- An argument that a number selects is one of the values. -/
theorem FormatArguments.mem_values_of_getElem? {args : FormatArguments} {i : Nat} {v : Text}
    (h : args.positional[i]? = some v) : v ∈ args.values :=
  List.mem_append_left _ (List.mem_of_getElem? h)

/-- An argument that a field selects is one of the values. -/
theorem FormatArguments.mem_values_of_select {args : FormatArguments} {next : Nat} {name v : Text}
    (h : args.select next name = some v) : v ∈ args.values := by
  rw [select] at h
  split at h
  · exact mem_values_of_getElem? h
  · split at h
    · obtain ⟨number, -, h⟩ := Option.bind_eq_some_iff.mp h
      exact mem_values_of_getElem? h
    · obtain ⟨l₁, l₂, hkeywords, -⟩ := List.lookup_eq_some_iff.mp h
      rw [values, hkeywords]
      simp

/-- The replacement field for an argument, with the conversion and the format as written. -/
def filledField (m : Match) (v : Text) : Text :=
  "\x7b" ++ v ++ (FieldParts.ofText (m.group 1)).conversion ++
    (FieldParts.ofText (m.group 1)).format ++ "\x7d"

/-- A field is filled with the argument that it selects, and then those behind it are. -/
theorem exists_of_fillFields_hit {args : FormatArguments} {next : Nat} {m : Match}
    {segments : List Segment} {pieces : List (Option Text)}
    (h : fillFields args next (.hit m :: segments) = .ok pieces) :
    ∃ later,
      fillFields args (if (FieldParts.ofText (m.group 1)).name.isEmpty then next + 1 else next)
        segments = .ok later ∧
      pieces = (args.select next (FieldParts.ofText (m.group 1)).name).map (filledField m) ::
        later := by
  -- Whatever the argument is, the fields behind are filled in next.
  have hlater : ∀ (value : Option Text) (next' : Nat),
      (do
        let filled := value.map (filledField m)
        return filled :: (← fillFields args next' segments)) = Except.ok pieces →
      ∃ later, fillFields args next' segments = .ok later ∧
        pieces = value.map (filledField m) :: later := by
    intro value next' hdo
    obtain ⟨later, hfill, hdo⟩ := ok_of_bind hdo
    cases hdo
    exact ⟨later, hfill, rfl⟩
  generalize hname : (FieldParts.ofText (m.group 1)).name = name
  rw [fillFields, hname] at h
  split at h
  · next hempty =>
    have hselect : args.select next name = args.positional[next]? := if_pos hempty
    rw [hselect, if_pos hempty]
    exact hlater _ _ h
  · next hempty =>
    rw [if_neg hempty]
    split at h
    · next hdigits =>
      obtain ⟨number, hnumber, h⟩ := ok_of_bind h
      have hselect : args.select next name = args.positional[number]? := by
        rw [FormatArguments.select, if_neg hempty, if_pos hdigits, hnumber]
        rfl
      rw [hselect]
      exact hlater _ _ h
    · next hdigits =>
      have hselect : args.select next name = args.keywords.lookup name := by
        rw [FormatArguments.select, if_neg hempty, if_neg hdigits]
      rw [hselect]
      exact hlater _ _ h

/-- What is not in the values, nor in the pieces of the format string, is not in the result. -/
theorem not_mem_fillFields {a : Char} (ha : a ∉ "\x7b\x7d".toList) {args : FormatArguments}
    (hargs : ∀ v ∈ args.values, a ∉ v) {next : Nat} {segments : List Segment}
    {pieces : List (Option Text)} (hgap : ∀ t, .gap t ∈ segments → a ∉ t)
    (hhit : ∀ m, .hit m ∈ segments → a ∉ m.group 1)
    (h : fillFields args next segments = .ok pieces) : ∀ t, some t ∈ pieces → a ∉ t := by
  induction segments generalizing next pieces with
  | nil =>
    cases h
    exact fun t ht => nomatch ht
  | cons s segments ih =>
    have hrest := fun next pieces hfill => @ih next pieces
      (fun t ht => hgap t (List.mem_cons_of_mem s ht))
      (fun m hm => hhit m (List.mem_cons_of_mem s hm)) hfill
    intro t ht
    cases s with
    | gap g =>
      rw [fillFields] at h
      obtain ⟨later, hfill, h⟩ := ok_of_bind h
      cases h
      rcases List.mem_cons.mp ht with heq | ht
      · cases heq
        exact hgap t List.mem_cons_self
      · exact hrest next later hfill t ht
    | hit m =>
      obtain ⟨later, hfill, rfl⟩ := exists_of_fillFields_hit h
      rcases List.mem_cons.mp ht with heq | ht
      · obtain ⟨v, hv, rfl⟩ := Option.map_eq_some_iff.mp heq.symm
        have hgroup := hhit m List.mem_cons_self
        -- The conversion and the format of a field are parts of its text.
        have hconversion : a ∉ (FieldParts.ofText (m.group 1)).conversion := fun hmem =>
          hgroup ((List.takeWhile_prefix _).subset ((List.dropWhile_suffix _).subset hmem))
        have hformat : a ∉ (FieldParts.ofText (m.group 1)).format := fun hmem =>
          hgroup ((List.dropWhile_suffix _).subset hmem)
        have hv := hargs v (FormatArguments.mem_values_of_select hv)
        simp_all [filledField]
      · exact hrest _ later hfill t ht

/-- The name in a field is made of the field's characters. -/
theorem formatField_group_subset {t v : Text} {m : Match} (h : MatchesBehind formatField t v m) :
    m.group 1 ⊆ m.text := by
  have hfield : Remembers 1 (many (CharSet.except "\x7b\x7d")) formatField :=
    .right rfl (.left .group rfl)
  obtain ⟨w, hinfix, -, hgroups⟩ := hfield.exists_spells rfl h.spells
  rw [group_eq, hgroups]
  exact List.IsInfix.subset hinfix

/-- The rule for the `format` method leaves a match alone, or it has checked the format string and
the arguments and fills these in. -/
theorem formatToFString_of_ne {m : Match} {o : Text} (hok : formatToFString m = .ok o)
    (hchange : o ≠ m.text) :
    holds (m.group 2) "\x7b\x7b" = false ∧ holds (m.group 2) "\x7d\x7d" = false ∧
      (∀ p ∈ splitParams (m.group 3),
        holds p (m.group 1) = false ∧ '\\' ∉ p ∧ startsWith p "*" = false) ∧
      ∃ pieces, fillFields (FormatArguments.ofParams (splitParams (m.group 3))) 0
          (formatField.segments (m.group 2)) = .ok pieces ∧
        (∀ piece ∈ pieces, piece ≠ none) ∧
        o = "f" ++ m.group 1 ++ (pieces.filterMap id).flatten ++ m.group 1 := by
  rw [formatToFString] at hok
  split at hok
  · cases hok
    exact absurd rfl hchange
  · -- Each check that leaves the match alone is one of the conditions.
    next hbody =>
    split at hok
    · cases hok
      exact absurd rfl hchange
    · next hparams =>
      obtain ⟨pieces, hpieces, hok⟩ := ok_of_bind hok
      split at hok
      · cases hok
        exact absurd rfl hchange
      · next hfilled =>
        cases hok
        rw [Bool.or_eq_true, not_or, Bool.not_eq_true, Bool.not_eq_true] at hbody
        refine ⟨hbody.1, hbody.2, fun p hp => ?_, pieces, hpieces,
          fun piece hpiece hnone => ?_, rfl⟩
        · rw [Bool.not_eq_true, List.any_eq_false] at hparams
          have hp := hparams p hp
          simp only [Bool.or_eq_true, not_or, List.contains_iff_mem, Bool.not_eq_true] at hp
          exact ⟨hp.1.1, hp.1.2, hp.2⟩
        · exact hfilled (List.any_eq_true.mpr ⟨piece, hpiece, Option.isNone_iff_eq_none.mpr hnone⟩)

/-- What is neither in the format string nor in the arguments is not in what is filled in. -/
theorem not_mem_filled {m : Match} {a : Char} (ha : a ∉ "\x7b\x7d".toList) (hbody : a ∉ m.group 2)
    (hargs : ∀ p ∈ splitParams (m.group 3), a ∉ p) {pieces : List (Option Text)}
    (hpieces : fillFields (FormatArguments.ofParams (splitParams (m.group 3))) 0
      (formatField.segments (m.group 2)) = .ok pieces) : a ∉ (pieces.filterMap id).flatten := by
  have hsolid : IsSolid formatField := isSolid_spec rfl
  intro hmem
  obtain ⟨t, ht, hmem⟩ := List.mem_flatten.mp hmem
  have hpiece : some t ∈ pieces := by simpa using ht
  refine not_mem_fillFields ha ?_ ?_ ?_ hpieces t hpiece hmem
  · intro v hv hmem
    obtain ⟨param, hparam, hsubset⟩ := FormatArguments.exists_of_mem_values hv
    exact hargs param hparam (hsubset hmem)
  · intro t ht hmem
    exact hbody (subset_of_mem_segments hsolid ht hmem)
  · intro m' hm' hmem
    obtain ⟨v, hv⟩ := exists_matchesBehind hsolid hm'
    exact hbody (subset_of_mem_segments hsolid hm' (formatField_group_subset hv hmem))

/-- The rule for `format` puts a prefix in front of the string, and leaves it on one line. -/
theorem formatToFString_prefixed {m : Match} (h : IsQuoted m) {o : Text}
    (hok : formatToFString m = .ok o) (hchange : o ≠ m.text) : Prefixed m.text o := by
  obtain ⟨-, -, -, pieces, hpieces, -, rfl⟩ := formatToFString_of_ne hok hchange
  exact h.prefixed (not_mem_filled (by decide) h.body
    (fun p hp hmem => h.args (subset_of_mem_splitParams hp hmem)) hpieces)

/-! ### The concatenation with a text -/

/-- The rule for `str` puts a prefix in front of the string, and leaves it on one line. -/
theorem concatenationToFString_prefixed {m : Match} (h : IsQuoted m) :
    Prefixed m.text (concatenationToFString m) := by
  have hfilled : '\n' ∉ m.group 2 ++ "\x7b" ++ m.group 3 ++ "\x7d" := by
    have hbody := h.body
    have hargs := h.args
    simp_all
  have hprefixed := h.prefixed hfilled
  simpa [concatenationToFString] using hprefixed

/-! ### The rules -/

/-- Each rule for formatted strings puts f-strings in the places of matches that begin with a
quote. -/
theorem exists_replace_of_mem_fStringRules {r : Rule} (h : r ∈ fStringRules) {t t' : Text}
    (hok : r.apply t = .ok t') :
    ∃ (rest : Pattern) (f : Match → Text), IsSolid (.both openingQuote rest) ∧
      t' = Pattern.replace (.both openingQuote rest) f t ∧
      ∀ v m, MatchesBehind (.both openingQuote rest) t v m → f m ≠ m.text →
        Prefixed m.text (f m) := by
  simp only [fStringRules, List.mem_cons, List.not_mem_nil, or_false] at h
  rcases h with rfl | rfl | rfl
  · cases hok
    exact ⟨_, _, isSolid_spec rfl, rfl,
      fun v m hm hne => percentToFString_prefixed (isQuoted_percent hm) hne⟩
  · refine ⟨_, _, isSolid_spec rfl, replace_of_replaceM formatToFString hok, fun v m hm hne => ?_⟩
    cases hresult : formatToFString m with
    -- A rule that fails leaves the match, so it changes nothing.
    | error e =>
      rw [orSame, hresult] at hne
      exact absurd rfl hne
    | ok o =>
      rw [orSame, hresult] at hne ⊢
      exact formatToFString_prefixed (isQuoted_format hm) hresult hne
  · cases hok
    exact ⟨_, _, isSolid_spec rfl, rfl,
      fun v m hm _ => concatenationToFString_prefixed (isQuoted_concatenation hm)⟩

end Python

end CodeTidy
