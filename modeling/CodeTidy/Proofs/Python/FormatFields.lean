import CodeTidy.Proofs.Pattern.Leads
import CodeTidy.Proofs.Python.PercentFields

/-!
# `CodeTidy.Proofs.Python.FormatFields`: the arguments of `format` as fields

The rule for the `format` method sorts the arguments into those by position and those by
name, and puts them in the fields that select them. Conversions and formats stay as they
are written. The theorems:

* `ofParams_of_forall₂`: the arguments of a call are told apart.
* `fieldParts_ofText`: the parts of a field.
* `exists_items_of_cuts`: each field is filled with the argument that it selects.
* `formatToFString_readsAs_iff`: when the f-string is read as what the call does.
* `fStrings_keepFields_iff`: the same for this rule and the one for the `%` operator.
-/

set_option autoImplicit false

namespace CodeTidy.Python

open Pattern Text

/-! ### What the call does -/

/-- An argument of a call: by position, or by name. -/
inductive Argument where
  | positional (value : Text)
  | named (name value : Text)

/-- The text could be an argument by name. -/
def LooksNamed (v : Text) : Prop :=
  ∃ s n s' w, v = s ++ (n ++ (s' ++ '=' :: w)) ∧ s.all isBlank = true ∧ n ≠ [] ∧
    n.all isWord = true ∧ s'.all isBlank = true ∧ w.head? ≠ some '='

/-- The argument is written as the parameter. -/
inductive Argument.Spells : Argument → Text → Prop where
  | positional {v : Text} (hv : ¬LooksNamed v) : Spells (.positional v) v
  | named {n s s' v : Text} (hne : n ≠ []) (hn : n.all isWord = true) (hs : s.all isBlank = true)
      (hs' : s'.all isBlank = true) (htrim : trim v = v) (hv : v.head? ≠ some '=') :
      Spells (.named n v) (n ++ (s ++ '=' :: (s' ++ v)))

/-- The arguments by position. -/
def positionalValues (args : List Argument) : List Text :=
  args.filterMap (fun arg => match arg with
    | .positional v => some v
    | .named _ _ => none)

/-- The arguments by name. -/
def namedValues (args : List Argument) : List (Text × Text) :=
  args.filterMap (fun arg => match arg with
    | .positional _ => none
    | .named n v => some (n, v))

/-- The argument that a field with the given name selects: the next one by position if the name is
empty, by its number, or the last one of that name. -/
def selected (args : List Argument) (next : Nat) (name : Text) : Option Text :=
  if name.isEmpty then (positionalValues args)[next]?
  else if name.all isDigitSign then (decimalValue? name).bind ((positionalValues args)[·]?)
  else (namedValues args).reverse.lookup name

/-- A piece of a format string: a character, or a field with its conversion and its format as they
are written. -/
inductive FormatPart where
  | char (c : Char)
  | field (name conversion format : Text)

/-- The piece as it is written. -/
def FormatPart.text : FormatPart → Text
  | .char c => [c]
  | .field name conversion format => '\x7b' :: (name ++ (conversion ++ (format ++ ['\x7d'])))

/-- The piece is no brace, and no field with another one in it. -/
def FormatPart.IsFlat : FormatPart → Prop
  | .char c => c ≠ '\x7b' ∧ c ≠ '\x7d'
  | .field name conversion format =>
    (∀ c ∈ "!:\x7b\x7d".toList, c ∉ name) ∧ IsConversion conversion ∧ IsFormat format

/-- The pieces that the `format` method makes of a format string and arguments, if there is one for
each field; `next` is the position of the argument for the next field without a name. -/
def formatItems (args : List Argument) : (next : Nat) → List FormatPart → Option (List Item)
  | _, [] => some []
  | next, .char c :: parts => do return .char c :: (← formatItems args next parts)
  | next, .field name conversion format :: parts => do
    let value ← selected args next name
    let next := if name.isEmpty then next + 1 else next
    return .field value conversion format :: (← formatItems args next parts)

/-! ### What the rule does -/

/-- A text is a word as a whole if it has word characters only, and one at least. -/
theorem isWhole_word_iff {t : Text} : word.isWhole t = true ↔ t ≠ [] ∧ t.all isWord = true := by
  rw [isWhole, matchWhole?]
  constructor
  · intro h
    obtain ⟨m, hm⟩ := Option.isSome_iff_exists.mp h
    obtain ⟨c, caps, ⟨u, hu, hleast, hread, -⟩, hend⟩ := exists_takes_of_run? hm
    split at hend
    · next hafter =>
      have ht : t = u := by
        have hsplit := hread.after_eq
        rwa [List.isEmpty_iff.mp hafter, List.append_nil] at hsplit
      rw [ht]
      exact ⟨List.length_pos_iff.mp hleast, hu⟩
    · cases hend
  · rintro ⟨hne, hall⟩
    obtain ⟨c, hread, hend⟩ := Cursor.exists_reads (c := Cursor.start t) (List.append_nil t).symm
    have htakes : Takes word (Cursor.start t) [] c [] :=
      ⟨t, hall, List.length_pos_iff.mpr hne, hread, rfl⟩
    exact isSome_run?_of_takes htakes (by rw [hend]; rfl)

/-- A text begins with an equals sign if that is its first character. -/
theorem startsWith_equals_iff {t : Text} : startsWith t "=" = true ↔ t.head? = some '=' := by
  rw [startsWith, List.isPrefixOf_iff_prefix, List.head?_eq_some_iff]
  exact exists_congr fun r => eq_comm

/-- Arguments are collected one by one: those by position in order, those by name in front of the
others. -/
theorem foldl_of_forall₂ {step : FormatArguments → Text → FormatArguments}
    (hpositional : ∀ acc v, ¬LooksNamed v →
      step acc v = { acc with positional := acc.positional ++ [v] })
    (hnamed : ∀ acc n v p, Argument.Spells (.named n v) p →
      step acc p = { acc with keywords := (n, v) :: acc.keywords })
    {args : List Argument} {params : List Text} (h : List.Forall₂ Argument.Spells args params)
    (acc : FormatArguments) :
    params.foldl step acc =
      ⟨acc.positional ++ positionalValues args, (namedValues args).reverse ++ acc.keywords⟩ := by
  induction h generalizing acc with
  | nil => simp [positionalValues, namedValues]
  | @cons arg param args params harg _ ih =>
    rw [List.foldl_cons]
    cases arg with
    | positional v =>
      cases harg with
      | positional hv =>
        rw [hpositional acc _ hv, ih]
        simp [positionalValues, namedValues]
    | named n v =>
      rw [hnamed acc n v param harg, ih]
      simp [positionalValues, namedValues]

/-- The arguments of the call are told apart. -/
theorem ofParams_of_forall₂ {args : List Argument} {params : List Text}
    (h : List.Forall₂ Argument.Spells args params) :
    FormatArguments.ofParams params = ⟨positionalValues args, (namedValues args).reverse⟩ := by
  have hequals : isWord '=' = false ∧ isBlank '=' = false := by decide
  rw [FormatArguments.ofParams]
  refine (foldl_of_forall₂ (fun acc v hv => ?_) (fun acc n v p hp => ?_) h ⟨[], []⟩).trans ?_
  · dsimp only
    split
    · next key value hcut =>
      -- An equals sign behind a name would make the argument look as if it had one.
      refine if_neg fun hcond => hv ?_
      rw [Bool.and_eq_true, isWhole_word_iff, Bool.not_eq_true', ← Bool.not_eq_true,
        startsWith_equals_iff] at hcond
      obtain ⟨⟨hne, hword⟩, hvalue⟩ := hcond
      obtain ⟨s, s', hkey, hs, hs'⟩ := exists_blanks_around key
      refine ⟨s, trim key, s', value, ?_, hs, hne, hword, hs', hvalue⟩
      have hsplit := eq_of_cutAt? hcut
      rw [hkey] at hsplit
      simpa using hsplit
    · rfl
  · cases hp with
    | @named _ s s' _ hne hn hs hs' htrim hv =>
      -- The first equals sign is that behind the name.
      have hcut : cutAt? '=' (n ++ (s ++ '=' :: (s' ++ v))) = some (n ++ s, s' ++ v) := by
        rw [← List.append_assoc]
        refine cutAt?_append (fun hmem => ?_) _
        rcases List.mem_append.mp hmem with hmem | hmem
        · have hword := List.all_eq_true.mp hn '=' hmem
          rw [hequals.1] at hword
          cases hword
        · have hblank := List.all_eq_true.mp hs '=' hmem
          rw [hequals.2] at hblank
          cases hblank
      have hkey : trim (n ++ s) = n := by
        have haround := trim_around List.all_nil hs n
        rwa [List.nil_append, trim_of_all_isWord hn] at haround
      have hvalue : trim (s' ++ v) = v := by rw [trim_blanks_append hs', htrim]
      have hstart : startsWith (s' ++ v) "=" = false := by
        rw [← Bool.not_eq_true, startsWith_equals_iff]
        intro hhead
        cases s' with
        | nil => exact hv hhead
        | cons c s' =>
          obtain rfl : c = '=' := Option.some.inj hhead
          rw [List.all_cons, hequals.2] at hs'
          cases hs'
      simp only [hcut, hkey, hvalue, hstart, isWhole_word_iff.mpr ⟨hne, hn⟩, Bool.not_false,
        Bool.and_self, if_true]
  · rw [List.nil_append, List.append_nil]

/-! ### Fields -/

/-- A conversion is empty or begins with its mark, and holds nothing that ends it. -/
theorem head?_of_isConversion {t : Text} (h : IsConversion t) :
    t.head?.all (fun c => !(c != '!')) = true ∧ ∀ c ∈ ":\x7b\x7d".toList, c ∉ t := by
  have hall : ∀ t ∈ [[], "!s".toList, "!r".toList, "!a".toList],
      t.head?.all (fun c => !(c != '!')) = true ∧ ∀ c ∈ ":\x7b\x7d".toList, c ∉ t := by decide
  exact hall t h

/-- A flat field is taken apart as it was written. -/
theorem fieldParts_ofText {name conversion format : Text}
    (h : (FormatPart.field name conversion format).IsFlat) :
    FieldParts.ofText (name ++ (conversion ++ format)) = ⟨name, conversion, format⟩ := by
  obtain ⟨hname, hconversion, hformat⟩ := h
  obtain ⟨hmark, hclear⟩ := head?_of_isConversion hconversion
  have hcolon : ∀ c ∈ name ++ conversion, (c != ':') = true := by
    intro c hc
    rw [bne_iff_ne]
    rintro rfl
    rcases List.mem_append.mp hc with hc | hc
    · exact hname ':' (by decide) hc
    · exact hclear ':' (by decide) hc
  have hbang : ∀ c ∈ name, (c != '!') = true := fun c hc =>
    bne_iff_ne.mpr fun h => hname '!' (by decide) (h ▸ hc)
  have hbehind : format.head?.all (fun c => !(c != ':')) = true := by
    simpa [bne] using hformat.1
  obtain ⟨hhead, hrest⟩ := takeWhile_append_of_head hcolon hbehind
  obtain ⟨hfront, hback⟩ := takeWhile_append_of_head hbang hmark
  rw [← List.append_assoc, FieldParts.ofText, hhead, hrest, hfront, hback]

/-- The pattern for fields matches a flat field, whose content it remembers. -/
theorem matchAt?_formatField {c : Cursor} {name conversion format r : Text}
    (h : (FormatPart.field name conversion format).IsFlat)
    (hc : c.after = (FormatPart.field name conversion format).text ++ r) :
    ∃ m, formatField.matchAt? c = some m ∧ m.stop.after = r ∧
      m.group 1 = name ++ (conversion ++ format) := by
  obtain ⟨hname, hconversion, hformat⟩ := h
  have hclear := (head?_of_isConversion hconversion).2
  have hsplit : c.after = "\x7b".toList ++ ((name ++ (conversion ++ format)) ++ ("\x7d" ++ r)) := by
    rw [hc]
    simp [FormatPart.text]
  obtain ⟨c₁, h₁, hc₁⟩ := Cursor.exists_reads hsplit
  obtain ⟨c₂, h₂, hc₂⟩ := Cursor.exists_reads hc₁
  obtain ⟨c₃, h₃, rfl⟩ := Cursor.exists_reads hc₂
  -- No part of a flat field holds a brace, so its content is taken as a whole.
  have hinside : (name ++ (conversion ++ format)).all (CharSet.except "\x7b\x7d") = true := by
    refine all_except_iff.mpr fun c hc hmem => ?_
    rw [List.mem_append, List.mem_append] at hmem
    rcases hmem with hmem | hmem | hmem
    · exact hname c (List.mem_cons_of_mem _ (List.mem_cons_of_mem _ hc)) hmem
    · exact hclear c (List.mem_cons_of_mem _ hc) hmem
    · obtain rfl | rfl : c = '\x7b' ∨ c = '\x7d' := by simpa using hc
      · exact hformat.2.1 hmem
      · exact hformat.2.2 hmem
  have hend : c₂.after.head?.any (CharSet.except "\x7b\x7d") = false := by
    rw [hc₂]
    rfl
  have hleads : Leads formatField c [] c₃ [(1, ⟨c₁, c₂⟩)] :=
    (leads_text h₁).both ((leads_run hinside (Nat.zero_le _) h₂ hend).group.both (leads_text h₃))
  exact ⟨_, hleads.matchAt?, rfl, h₂.take_eq⟩

/-- A flat field is filled as its item is written. -/
theorem filledField_eq {m : Match} {name conversion format v : Text}
    (h : (FormatPart.field name conversion format).IsFlat)
    (hgroup : m.group 1 = name ++ (conversion ++ format)) :
    filledField m v = (Item.field v conversion format).text := by
  rw [filledField, hgroup, fieldParts_ofText h]
  simp [Item.text]

/-- A match begins with a brace. -/
theorem head?_of_formatField {c : Cursor} {m : Match} (hm : formatField.matchAt? c = some m) :
    c.after.head? = some '\x7b' := by
  obtain ⟨rfl, c₁, caps₁, hopening, -⟩ := takes_of_matchAt? hm
  rw [(takes_text_iff.mp hopening).1.after_eq]
  rfl

/-- A walk over fields passes over a character that is no brace. -/
theorem exists_cuts_of_char {c : Cursor} {segments : List Segment} {a : Char} {r : Text}
    (h : Cuts formatField c segments) (hc : c.after = a :: r) (ha : a ≠ '\x7b') :
    ∃ c' g rest, segments = .gap (a :: g) :: rest ∧ c'.after = r ∧
      Cuts formatField c' (.gap g :: rest) := by
  cases h with
  | stop hend =>
    rw [hend] at hc
    cases hc
  | @pass _ c' b g rest hread hnone hrest =>
    obtain ⟨rfl, hc'⟩ : b = a ∧ c'.after = r := List.cons.inj (hread.after_eq.symm.trans hc)
    exact ⟨c', g, rest, rfl, hc', hrest⟩
  | hit hmatch =>
    have hhead := head?_of_formatField hmatch
    rw [hc] at hhead
    exact absurd (Option.some.inj hhead) ha

/-- A walk over fields takes a flat field as a match. -/
theorem exists_cuts_of_field {c : Cursor} {segments : List Segment}
    {name conversion format r : Text} (h : Cuts formatField c segments)
    (hflat : (FormatPart.field name conversion format).IsFlat)
    (hc : c.after = (FormatPart.field name conversion format).text ++ r) :
    ∃ m rest, segments = .gap [] :: .hit m :: rest ∧ m.group 1 = name ++ (conversion ++ format) ∧
      m.stop.after = r ∧ Cuts formatField m.stop rest := by
  obtain ⟨m, hm, hstop, hgroup⟩ := matchAt?_formatField hflat hc
  cases h with
  | stop hend =>
    rw [hend] at hc
    cases hc
  | pass _ hnone =>
    rw [hm] at hnone
    cases hnone
  | @hit _ m' rest hmatch hrest =>
    obtain rfl : m' = m := Option.some.inj (hmatch.symm.trans hm)
    exact ⟨m', rest, rfl, hgroup, hstop, hrest⟩

/-- Each field of a flat format string is filled with the argument that it selects, and the
characters between the fields stay. -/
theorem exists_items_of_cuts {args : List Argument} {given : FormatArguments}
    (hgiven : ∀ next name v, given.select next name = some v → selected args next name = some v)
    {parts : List FormatPart} (hflat : ∀ part ∈ parts, part.IsFlat) {c : Cursor}
    {segments : List Segment} (h : Cuts formatField c segments)
    (hc : c.after = parts.flatMap FormatPart.text) {next : Nat} {pieces : List (Option Text)}
    (hfill : fillFields given next segments = .ok pieces)
    (hpieces : ∀ piece ∈ pieces, piece ≠ none) :
    ∃ items, formatItems args next parts = some items ∧
      (pieces.filterMap id).flatten = items.flatMap Item.text := by
  induction parts generalizing c segments next pieces with
  | nil =>
    cases h with
    | stop =>
      cases hfill
      exact ⟨[], rfl, rfl⟩
    | pass hread =>
      have hafter := hread.after_eq.symm.trans hc
      cases hafter
    | hit hmatch =>
      have hhead := head?_of_formatField hmatch
      rw [hc] at hhead
      cases hhead
  | cons part parts ih =>
    rw [List.forall_mem_cons] at hflat
    rw [List.flatMap_cons] at hc
    cases part with
    | char a =>
      obtain ⟨c', g, rest, rfl, hc', hrest⟩ := exists_cuts_of_char h hc hflat.1.1
      rw [fillFields] at hfill
      obtain ⟨later, hlater, hok⟩ := ok_of_bind hfill
      cases hok
      -- The rest of the gap is filled as the gap is.
      have hgap : fillFields given next (.gap g :: rest) = .ok (some g :: later) := by
        rw [fillFields, hlater]
        rfl
      rw [List.forall_mem_cons] at hpieces
      obtain ⟨items, hitems, htext⟩ := ih hflat.2 hrest hc' hgap
        (List.forall_mem_cons.mpr ⟨Option.some_ne_none g, hpieces.2⟩)
      refine ⟨.char a :: items, ?_, ?_⟩
      · rw [formatItems, hitems]
        rfl
      · rw [List.flatMap_cons, Item.text_char hflat.1.1 hflat.1.2, ← htext]
        rfl
    | field name conversion format =>
      obtain ⟨m, rest, rfl, hgroup, hstop, hrest⟩ := exists_cuts_of_field h hflat.1 hc
      rw [fillFields] at hfill
      obtain ⟨filled, hhit, hok⟩ := ok_of_bind hfill
      cases hok
      obtain ⟨later, hlater, rfl⟩ := exists_of_fillFields_hit hhit
      rw [hgroup, fieldParts_ofText hflat.1] at hlater hpieces ⊢
      rw [List.forall_mem_cons, List.forall_mem_cons] at hpieces
      obtain ⟨-, hvalue, hpieces⟩ := hpieces
      cases hselect : given.select next name with
      | none =>
        rw [hselect] at hvalue
        exact absurd rfl hvalue
      | some v =>
        obtain ⟨items, hitems, htext⟩ := ih hflat.2 hrest hstop hlater hpieces
        refine ⟨.field v conversion format :: items, ?_, ?_⟩
        · rw [formatItems, hgiven next name v hselect]
          show (do
            let items ← formatItems args (if name.isEmpty then next + 1 else next) parts
            return Item.field v conversion format :: items) = _
          rw [hitems]
          rfl
        · rw [List.flatMap_cons, ← filledField_eq hflat.1 hgroup, ← htext]
          rfl

/-! ### The f-string of the rule -/

/-- The number of a field is what its digits say. -/
theorem decimalValue?_of_fieldNumber {name : Text} {n : Nat}
    (h : (fieldNumber name).toOption = some n) : decimalValue? name = some n := by
  rw [fieldNumber] at h
  split at h
  · cases h
  · split at h
    · next hvalue =>
      rw [hvalue]
      exact h
    · cases h

/-- The rule selects the argument that the call selects. -/
theorem selected_of_select {args : List Argument} {next : Nat} {name v : Text}
    (h : (FormatArguments.mk (positionalValues args) (namedValues args).reverse).select next name =
      some v) : selected args next name = some v := by
  rw [FormatArguments.select] at h
  rw [selected]
  split at h
  · next hempty =>
    rw [if_pos hempty]
    exact h
  · next hempty =>
    rw [if_neg hempty]
    split at h
    · next hdigits =>
      obtain ⟨n, hn, hv⟩ := Option.bind_eq_some_iff.mp h
      rw [if_pos hdigits, decimalValue?_of_fieldNumber hn]
      exact hv
    · next hdigits =>
      rw [if_neg hdigits]
      exact h

/-- The pieces are sound if their expressions are. -/
theorem isSound_formatItems_iff {args : List Argument} {parts : List FormatPart}
    (hflat : ∀ part ∈ parts, part.IsFlat) {next : Nat} {items : List Item}
    (h : formatItems args next parts = some items) :
    (∀ item ∈ items, item.IsSound) ↔ ∀ e ∈ items.filterMap Item.expression?, IsExpression e := by
  induction parts generalizing next items with
  | nil =>
    cases h
    simp
  | cons part parts ih =>
    rw [List.forall_mem_cons] at hflat
    cases part with
    -- A character adds no expression, and is sound.
    | char c =>
      obtain ⟨rest, hrest, heq⟩ := Option.bind_eq_some_iff.mp h
      cases heq
      rw [List.forall_mem_cons, expressions_char, ← ih hflat.2 hrest]
      exact and_iff_right trivial
    | field name conversion format =>
      obtain ⟨v, -, hbind⟩ := Option.bind_eq_some_iff.mp h
      obtain ⟨rest, hrest, heq⟩ := Option.bind_eq_some_iff.mp hbind
      cases heq
      rw [List.forall_mem_cons, expressions_field, List.forall_mem_cons]
      exact and_congr ⟨fun h => h.1, fun h => ⟨h, hflat.1.2⟩⟩ (ih hflat.2 hrest)

/-- The text lists the arguments of a call. -/
def IsCall (args : List Argument) (u : Text) : Prop :=
  ∃ params, List.Forall₂ Argument.Spells args params ∧ Lists params u

/-- The text is a format string of the pieces. -/
def IsFormatString (parts : List FormatPart) (body : Text) : Prop :=
  body = parts.flatMap FormatPart.text ∧ ∀ part ∈ parts, part.IsFlat

section

variable {t v : Text} {m : Match}

/-- There is an argument for each field, and the f-string is read as what the method makes of the
format string and the arguments exactly if each argument that a field selects is read as an
expression. -/
theorem formatToFString_readsAs_iff (h : MatchesBehind formatCall t v m) {o : Text}
    (hok : formatToFString m = .ok o) (hchange : o ≠ m.text) {args : List Argument}
    {parts : List FormatPart} (hcall : IsCall args (m.group 3))
    (hbody : IsFormatString parts (m.group 2)) :
    ∃ items, formatItems args 0 parts = some items ∧
      (StringReadsAs o items ↔ ∀ e ∈ items.filterMap Item.expression?, IsExpression e) := by
  have hwell := formatToFString_isWellQuoted h hok hchange
  obtain ⟨-, -, -, pieces, hfill, hpieces, rfl⟩ := formatToFString_of_ne hok hchange
  obtain ⟨params, hspells, hlists⟩ := hcall
  obtain ⟨hparts, hflat⟩ := hbody
  rw [splitParams_of_lists hlists, ofParams_of_forall₂ hspells] at hfill
  obtain ⟨items, hitems, htext⟩ := exists_items_of_cuts (fun _ _ _ => selected_of_select) hflat
    (cuts_segments (isSolid_spec rfl) _) hparts hfill hpieces
  refine ⟨items, hitems, ?_⟩
  rw [(isQuoted_format h).stringReadsAs_iff hwell, readsAs_iff,
    isSound_formatItems_iff hflat hitems]
  exact and_iff_right htext

end

/-- What the f-strings of a text are read as. One that takes the place of the `%` operator is read
as what the operator makes exactly if it uses all values, and each of them is read as an expression
and holds no two percent signs. One that takes the place of a call of `format` is read as what the
call makes exactly if each argument that a field selects is read as an expression. -/
theorem fStrings_keepFields_iff (t : Text) :
    (∀ m ∈ percentFormat.hits t, percentToFString m ≠ m.text →
      ∀ values, IsOperand values (m.group 3) →
        (StringReadsAs (percentToFString m) (percentItems (m.group 2) values) ↔
          (percentItems (m.group 2) values).filterMap Item.expression? = values ∧
            ∀ v ∈ values, IsExpression v ∧ holds v "%%" = false)) ∧
    ∀ m ∈ formatCall.hits t, ∀ o, formatToFString m = .ok o → o ≠ m.text →
      ∀ args parts, IsCall args (m.group 3) → IsFormatString parts (m.group 2) →
        ∃ items, formatItems args 0 parts = some items ∧
          (StringReadsAs o items ↔
            ∀ e ∈ items.filterMap Item.expression?, IsExpression e) := by
  constructor
  · intro m hm hchange values hoperand
    obtain ⟨v, hv⟩ := exists_matchesBehind_of_mem_hits (isSolid_spec rfl) hm
    exact percentToFString_readsAs_iff hv hchange hoperand
  · intro m hm o hok hchange args parts hcall hbody
    obtain ⟨v, hv⟩ := exists_matchesBehind_of_mem_hits (isSolid_spec rfl) hm
    exact formatToFString_readsAs_iff hv hok hchange hcall hbody

/-- A line with a match for each of the two rules. -/
def totalsLine : Text :=
  "print('%s: %%%r' % (name, rows[0]), '\x7b:>3\x7d\x7bunit!r\x7d'.format(total, unit=u))"

/-- All values on the line are read as expressions. -/
theorem fStrings_keepFields_totalsLine :
    (∃ m ∈ percentFormat.hits totalsLine, percentToFString m ≠ m.text ∧
      IsOperand ["name".toList, "rows[0]".toList] (m.group 3) ∧
      StringReadsAs (percentToFString m) [.field "name" [] [], .char ':', .char ' ', .char '%',
        .field "rows[0]" "!r" []]) ∧
    ∃ m ∈ formatCall.hits totalsLine, ∃ o, formatToFString m = .ok o ∧ o ≠ m.text ∧
      IsCall [.positional "total", .named "unit" "u"] (m.group 3) ∧
      IsFormatString [.field [] [] ":>3", .field "unit" "!r" []] (m.group 2) ∧
      StringReadsAs o [.field "total" [] ":>3", .field "u" "!r" []] := by
  have hpercent : (percentFormat.hits totalsLine).any (fun m => percentToFString m != m.text &&
      m.group 2 == "%s: %%%r".toList && m.group 3 == "(name, rows[0])".toList) = true := by
    decide +kernel
  have hformat : (formatCall.hits totalsLine).any (fun m =>
      (formatToFString m).toOption.any (· != m.text) &&
      m.group 2 == "\x7b:>3\x7d\x7bunit!r\x7d".toList &&
      m.group 3 == "total, unit=u".toList) = true := by
    decide +kernel
  obtain ⟨hkeeps, hkeeps'⟩ := fStrings_keepFields_iff totalsLine
  constructor
  · obtain ⟨m, hm, hmatch⟩ := List.any_eq_true.mp hpercent
    rw [Bool.and_eq_true, Bool.and_eq_true, bne_iff_ne, beq_iff_eq, beq_iff_eq] at hmatch
    obtain ⟨⟨hchange, hbody⟩, hargs⟩ := hmatch
    have hoperand : IsOperand ["name".toList, "rows[0]".toList] "(name, rows[0])" :=
      .list (.cons List.all_nil ⟨⟨by decide, by decide⟩, by decide, by decide⟩ List.all_nil
        (.last (s := " ") (by decide) ⟨⟨by decide, by decide⟩, by decide, by decide⟩ List.all_nil))
    have hiff := hkeeps m hm hchange _ (hargs ▸ hoperand)
    rw [hbody] at hiff
    refine ⟨m, hm, hchange, hargs ▸ hoperand, hiff.mpr ?_⟩
    decide +kernel
  · obtain ⟨m, hm, hmatch⟩ := List.any_eq_true.mp hformat
    rw [Bool.and_eq_true, Bool.and_eq_true, beq_iff_eq, beq_iff_eq] at hmatch
    obtain ⟨⟨hsome, hbody⟩, hargs⟩ := hmatch
    obtain ⟨o, ho, hchange⟩ := (Option.any_eq_true _ _).mp hsome
    rw [bne_iff_ne] at hchange
    obtain ⟨o', hok, rfl⟩ := exists_eq_ok_of_toOption (f := id) (by rw [ho]; rfl)
    -- The first argument has no equals sign at all.
    have hunnamed : ¬LooksNamed "total" := by
      rintro ⟨s, n, s', w, heq, -⟩
      have hmem : '=' ∈ "total".toList := by
        rw [heq]
        simp
      exact absurd hmem (by decide)
    have hcall : IsCall [.positional "total", .named "unit" "u"] "total, unit=u" := by
      refine ⟨["total".toList, "unit=u".toList], .cons (.positional hunnamed) (.cons ?_ .nil), ?_⟩
      · have hspells := Argument.Spells.named (n := "unit") (v := "u") (by decide) (by decide)
          List.all_nil List.all_nil (by decide) (by decide)
        exact hspells
      · exact .cons List.all_nil ⟨⟨by decide, by decide⟩, by decide, by decide⟩ List.all_nil
          (.last (s := " ") (by decide) ⟨⟨by decide, by decide⟩, by decide, by decide⟩
            List.all_nil)
    have hstring : IsFormatString [.field [] [] ":>3", .field "unit" "!r" []]
        "\x7b:>3\x7d\x7bunit!r\x7d" := by
      refine ⟨by decide, List.forall_mem_cons.mpr ⟨?_, List.forall_mem_singleton.mpr ?_⟩⟩
      · exact ⟨by decide, List.mem_cons_self, rfl, by decide, by decide⟩
      · exact ⟨by decide, by rw [IsConversion]; decide, rfl, by decide, by decide⟩
    obtain ⟨items, hitems, hiff⟩ :=
      hkeeps' m hm o' hok hchange _ _ (hargs ▸ hcall) (hbody ▸ hstring)
    have hvalue : formatItems [.positional "total", .named "unit" "u"] 0
        [.field [] [] ":>3", .field "unit" "!r" []] =
          some [.field "total" [] ":>3", .field "u" "!r" []] := by decide +kernel
    obtain rfl := Option.some.inj (hitems.symm.trans hvalue)
    refine ⟨m, hm, o', hok, hchange, hargs ▸ hcall, hbody ▸ hstring, hiff.mpr ?_⟩
    decide +kernel

/-- A value that begins with a brace is read as literal text. -/
theorem formatToFString_loses_field :
    (∃ m ∈ formatCall.hits "'\x7b\x7d'.format(\x7bn: 1 for n in ns\x7d)",
      formatToFString m = .ok "f'\x7b\x7bn: 1 for n in ns\x7d\x7d'") ∧
    formatItems [.positional "\x7bn: 1 for n in ns\x7d"] 0 [.field [] [] []] =
      some [.field "\x7bn: 1 for n in ns\x7d" [] []] ∧
    StringReadsAs "f'\x7b\x7bn: 1 for n in ns\x7d\x7d'"
      ("\x7bn: 1 for n in ns\x7d".toList.map .char) ∧
    ¬StringReadsAs "f'\x7b\x7bn: 1 for n in ns\x7d\x7d'"
      [.field "\x7bn: 1 for n in ns\x7d" [] []] := by
  have hliteral : StringReadsAs "f'\x7b\x7bn: 1 for n in ns\x7d\x7d'"
      ("\x7bn: 1 for n in ns\x7d".toList.map .char) := by
    refine ⟨'\'', "\x7b\x7bn: 1 for n in ns\x7d\x7d", rfl, by decide, by decide, ?_⟩
    rw [readsAs_iff]
    refine ⟨by decide, fun item hitem => ?_⟩
    obtain ⟨c, -, rfl⟩ := List.mem_map.mp hitem
    trivial
  refine ⟨?_, by decide +kernel, hliteral, fun hfield => ?_⟩
  · have hmatch : (formatCall.hits "'\x7b\x7d'.format(\x7bn: 1 for n in ns\x7d)").any (fun m =>
        (formatToFString m).toOption == some
          "f'\x7b\x7bn: 1 for n in ns\x7d\x7d'".toList) = true := by
      decide +kernel
    obtain ⟨m, hm, hsome⟩ := List.any_eq_true.mp hmatch
    obtain ⟨o, hok, rfl⟩ := exists_eq_ok_of_toOption (f := id) (by rw [beq_iff_eq.mp hsome]; rfl)
    exact ⟨m, hm, hok⟩
  · -- A string reads in one way only, and this one reads as its characters.
    have hunique := hliteral.unique hfield
    revert hunique
    decide

end CodeTidy.Python
