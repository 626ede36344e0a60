import CodeTidy.Proofs.Text.Gauge
import CodeTidy.Proofs.Text.Lines

/-!
# `CodeTidy.Proofs.Python.Reading`: how an f-string is read

Between its quotes an f-string is literal text and replacement fields. Doubled braces
stand for a brace, and any other opening brace begins a field: an expression, perhaps a
conversion, perhaps a format. The expression ends at the first `!`, `:`, `=` or `}` that
stands in no brackets and no quotes, and a backslash or a comment breaks it off. So what
is put between two braces need not be read as one expression. The theorems:

* `ReadsAs.unique`: a text has at most one reading.
* `StringReadsAs.unique`: the same for an f-string with its quotes.
* `readsAs_iff`: a text that is written for some pieces is read as these exactly if their
  expressions, conversions and formats are what they have to be.
-/

set_option autoImplicit false

namespace CodeTidy.Python

open Text

/-! ### Expressions -/

/-- Where the reading of an expression stands: the brackets that have to be closed, innermost
first, the quote it is in, and whether the next character belongs to the same operator. -/
structure Scan where
  closers : List Char
  quote : Option Char
  joined : Bool
  deriving DecidableEq

namespace Scan

/-- The state at the start of an expression. -/
def start : Scan := ⟨[], none, false⟩

/-- The bracket that closes an opening one. -/
def closer? (c : Char) : Option Char :=
  if c == '(' then some ')' else if c == '[' then some ']' else if c == '\x7b' then some '\x7d'
  else none

/-- The state after a character outside quotes. Outside brackets `!`, `:`, `=` and a closing brace
end the expression, unless they are part of a comparison. -/
def stepOutside (s : Scan) (c : Char) (next : Option Char) : Option Scan :=
  match closer? c with
  | some d => some { s with closers := d :: s.closers }
  | none =>
    match s.closers with
    | d :: closers =>
      if c == d then some { s with closers := closers }
      else if ")]\x7d".toList.contains c then none
      else some s
    | [] =>
      if "!=<>".toList.contains c && next == some '=' then some { s with joined := true }
      else if ")]\x7d!=:".toList.contains c then none
      else some s

/-- The state after one more character; absent if the expression ends there, or is none. -/
def step (s : Scan) (c : Char) (next : Option Char) : Option Scan :=
  if s.joined then some { s with joined := false }
  else if c == '\\' then none
  else match s.quote with
    | some q => some (if c == q then { s with quote := none } else s)
    | none =>
      if isQuote c then some { s with quote := some c }
      else if c == '#' then none
      else s.stepOutside c next

/-- The state after a text. -/
def run? : Scan → Text → Option Scan
  | s, [] => some s
  | s, c :: r => (s.step c r.head?).bind (run? · r)

/-- Only an equals sign makes a difference to the character before it. -/
theorem step_of_ne {next : Option Char} (hnext : next ≠ some '=') (s : Scan) (c : Char) :
    s.step c next = s.step c none := by
  have hfalse : (next == some '=') = false := beq_false_of_ne hnext
  simp [step, stepOutside, hfalse]

/-- A text is read one part after the other, if the second part does not make an equals sign at the
end of the first one a comparison. -/
theorem run?_append {r : Text} (hr : r.head? ≠ some '=') (s : Scan) (u : Text) :
    s.run? (u ++ r) = (s.run? u).bind (run? · r) := by
  induction u generalizing s with
  | nil => rfl
  | cons c u ih =>
    have hstep : s.step c (u ++ r).head? = s.step c u.head? := by
      cases u with
      | nil => exact step_of_ne hr s c
      | cons d u => rfl
    rw [List.cons_append, run?, run?, hstep, Option.bind_assoc]
    exact Option.bind_congr fun s' _ => ih s'

end Scan

/-- The text is read as an expression up to its end: it begins with no brace, as two of them are
one literal brace, and is not blank. -/
def IsExpression (v : Text) : Prop :=
  v.head? ≠ some '\x7b' ∧ allBlank v = false ∧ Scan.start.run? v = some .start

instance (v : Text) : Decidable (IsExpression v) := inferInstanceAs (Decidable (_ ∧ _ ∧ _))

/-- The text ends an expression in front of it, whatever part of it is looked at. -/
def Ends (r : Text) : Prop :=
  ∃ c r', r = c :: r' ∧ c ≠ '=' ∧ Scan.start.step c none = none ∧
    Scan.start.step c r'.head? = none

/-- Two expressions in front of what ends them are the same. -/
theorem IsExpression.unique {v v' r r' : Text} (hv : IsExpression v) (hv' : IsExpression v')
    (hr : Ends r) (hr' : Ends r') (h : v ++ r = v' ++ r') : v = v' ∧ r = r' := by
  -- If one of them went on where the other one ends, it would end there as well.
  have hlonger {v a r : Text} (hv : IsExpression v) (hr : Ends (a ++ r))
      (hrun : Scan.start.run? (v ++ a) = some .start) : a = [] := by
    obtain ⟨c, r', hr, hc, hnone, hnext⟩ := hr
    cases a with
    | nil => rfl
    | cons d a =>
      obtain ⟨rfl, rfl⟩ : d = c ∧ a ++ r = r' := by simpa using hr
      have hne : (d :: a).head? ≠ some '=' := fun h => hc (Option.some.inj h)
      have hstep : Scan.start.step d a.head? = none := by
        cases a with
        | nil => exact hnone
        | cons b a => exact hnext
      rw [Scan.run?_append hne, hv.2.2, Option.bind_some, Scan.run?, hstep] at hrun
      cases hrun
  rcases List.append_eq_append_iff.mp h with ⟨a, rfl, rfl⟩ | ⟨a, rfl, rfl⟩
  · obtain rfl := hlonger hv hr hv'.2.2
    exact ⟨(List.append_nil v).symm, rfl⟩
  · obtain rfl := hlonger hv' hr' hv.2.2
    exact ⟨List.append_nil v', rfl⟩

/-! ### Pieces -/

/-- A piece of an f-string: a character of its literal text, or a replacement field with its
conversion and its format as they are written. -/
inductive Item where
  | char (c : Char)
  | field (expression conversion format : Text)
  deriving DecidableEq

/-- The piece as it is written. -/
def Item.text : Item → Text
  | .char c => if c == '\x7b' || c == '\x7d' then [c, c] else [c]
  | .field expression conversion format =>
    '\x7b' :: (expression ++ (conversion ++ (format ++ ['\x7d'])))

/-- A character other than a brace is written as it is. -/
theorem Item.text_char {c : Char} (hopening : c ≠ '\x7b') (hclosing : c ≠ '\x7d') :
    Item.text (.char c) = [c] := by
  simp [Item.text, hopening, hclosing]

/-- The expression of a replacement field. -/
def Item.expression? : Item → Option Text
  | .char _ => none
  | .field expression _ _ => some expression

/-- A character adds no expression. -/
theorem expressions_char (c : Char) (items : List Item) :
    (.char c :: items).filterMap Item.expression? = items.filterMap Item.expression? := rfl

/-- A field adds its expression. -/
theorem expressions_field (expression conversion format : Text) (items : List Item) :
    (.field expression conversion format :: items).filterMap Item.expression? =
      expression :: items.filterMap Item.expression? := rfl

/-- A conversion as it is written, or none. -/
def IsConversion (t : Text) : Prop := t ∈ [[], "!s".toList, "!r".toList, "!a".toList]

/-- A format as it is written, or none. A format with replacement fields of its own is left out. -/
def IsFormat (t : Text) : Prop := t.head?.all (· == ':') = true ∧ '\x7b' ∉ t ∧ '\x7d' ∉ t

/-- Between its quotes an f-string is read as the pieces. -/
inductive ReadsAs : Text → List Item → Prop where
  | done : ReadsAs [] []
  | char {c : Char} {r : Text} {items : List Item} (hopening : c ≠ '\x7b') (hclosing : c ≠ '\x7d')
      (hrest : ReadsAs r items) : ReadsAs (c :: r) (.char c :: items)
  | opening {r : Text} {items : List Item} (hrest : ReadsAs r items) :
      ReadsAs ('\x7b' :: '\x7b' :: r) (.char '\x7b' :: items)
  | closing {r : Text} {items : List Item} (hrest : ReadsAs r items) :
      ReadsAs ('\x7d' :: '\x7d' :: r) (.char '\x7d' :: items)
  | field {expression conversion format r : Text} {items : List Item}
      (hexpression : IsExpression expression) (hconversion : IsConversion conversion)
      (hformat : IsFormat format) (hrest : ReadsAs r items) :
      ReadsAs ('\x7b' :: (expression ++ (conversion ++ (format ++ '\x7d' :: r))))
        (.field expression conversion format :: items)

/-- What comes behind the expression of a field ends it. -/
theorem ends_of_field {conversion format : Text} (hconversion : IsConversion conversion)
    (hformat : IsFormat format) (r : Text) :
    Ends (conversion ++ (format ++ '\x7d' :: r)) := by
  have hbrace : ∀ next, Scan.start.step '\x7d' next = none := fun _ => rfl
  have hcolon : ∀ next, Scan.start.step ':' next = none := fun _ => rfl
  simp only [IsConversion, List.mem_cons, List.not_mem_nil, or_false] at hconversion
  rcases hconversion with rfl | rfl | rfl | rfl
  · cases format with
    | nil => exact ⟨_, r, rfl, by decide, hbrace _, hbrace _⟩
    | cons c format =>
      obtain rfl : c = ':' := by simpa using hformat.1
      exact ⟨_, _, rfl, by decide, hcolon _, hcolon _⟩
  all_goals exact ⟨'!', _, rfl, by decide, by decide, rfl⟩

/-- Conversions and formats in front of a closing brace are the same. -/
theorem field_inj {conversion format conversion' format' r r' : Text}
    (hconversion : IsConversion conversion) (hformat : IsFormat format)
    (hconversion' : IsConversion conversion') (hformat' : IsFormat format')
    (h : conversion ++ (format ++ '\x7d' :: r) = conversion' ++ (format' ++ '\x7d' :: r')) :
    conversion = conversion' ∧ format = format' ∧ r = r' := by
  have hall : ∀ t ∈ [[], "!s".toList, "!r".toList, "!a".toList],
      t.all (fun c => !(c == ':' || c == '\x7d')) = true := by decide
  -- What follows a conversion is a colon or the brace, and no conversion holds either.
  have hbehind {format r : Text} (hformat : IsFormat format) :
      (format ++ '\x7d' :: r).head?.all (fun c => !!(c == ':' || c == '\x7d')) = true := by
    cases format with
    | nil => rfl
    | cons c format =>
      obtain rfl : c = ':' := by simpa using hformat.1
      rfl
  obtain ⟨rfl, hrest⟩ := append_inj_of_all (hall _ hconversion) (hall _ hconversion')
    (hbehind hformat) (hbehind hformat') h
  have hclear {format : Text} (hformat : IsFormat format) :
      format.all (fun c => !(c == '\x7d')) = true :=
    List.all_eq_true.mpr fun c hc => by
      rw [beq_false_of_ne (ne_of_mem_of_not_mem hc hformat.2.2)]
      rfl
  obtain ⟨rfl, hbrace⟩ := append_inj_of_all (hclear hformat) (hclear hformat') rfl rfl hrest
  exact ⟨rfl, rfl, (List.cons.inj hbrace).2⟩

/-- An expression begins with a character that is no brace. -/
theorem IsExpression.exists_cons {v : Text} (h : IsExpression v) :
    ∃ c r, v = c :: r ∧ c ≠ '\x7b' := by
  obtain ⟨hbrace, hvisible, -⟩ := h
  cases v with
  | nil => cases hvisible
  | cons c r => exact ⟨c, r, rfl, fun hc => hbrace (congrArg some hc)⟩

/-- A text has at most one reading. -/
theorem ReadsAs.unique {t : Text} {items items' : List Item} (h : ReadsAs t items)
    (h' : ReadsAs t items') : items = items' := by
  -- Doubled braces are no field, as no expression begins with a brace.
  have hdouble {r : Text} {items : List Item} (h : ReadsAs ('\x7b' :: '\x7b' :: r) items) :
      ∃ items', items = .char '\x7b' :: items' ∧ ReadsAs r items' := by
    generalize ht : '\x7b' :: '\x7b' :: r = t at h
    cases h with
    | done => cases ht
    | char hopening => exact absurd (List.cons.inj ht).1.symm hopening
    | opening hrest =>
      cases ht
      exact ⟨_, rfl, hrest⟩
    | closing => cases ht
    | field hexpression =>
      obtain ⟨c, e, rfl, hc⟩ := hexpression.exists_cons
      exact absurd (List.cons.inj (List.cons.inj ht).2).1.symm hc
  induction h generalizing items' with
  | done =>
    cases h'
    rfl
  | char hopening hclosing _ ih =>
    cases h' with
    | char _ _ hrest' => rw [ih hrest']
    | opening => exact absurd rfl hopening
    | closing => exact absurd rfl hclosing
    | field => exact absurd rfl hopening
  | opening _ ih =>
    obtain ⟨items', rfl, hrest'⟩ := hdouble h'
    rw [ih hrest']
  | closing _ ih =>
    cases h' with
    | char _ hclosing => exact absurd rfl hclosing
    | closing hrest' => rw [ih hrest']
  | @field e conversion format r items hexpression hconversion hformat hrest ih =>
    generalize ht : '\x7b' :: (e ++ (conversion ++ (format ++ '\x7d' :: r))) = t at h'
    cases h' with
    | done => cases ht
    | char hopening => exact absurd (List.cons.inj ht).1.symm hopening
    | opening =>
      obtain ⟨c, e, rfl, hc⟩ := hexpression.exists_cons
      exact absurd (List.cons.inj (List.cons.inj ht).2).1 hc
    | closing => cases ht
    | field hexpression' hconversion' hformat' hrest' =>
      obtain ⟨rfl, hbehind⟩ := hexpression.unique hexpression'
        (ends_of_field hconversion hformat _) (ends_of_field hconversion' hformat' _)
        (List.cons.inj ht).2
      obtain ⟨rfl, rfl, rfl⟩ := field_inj hconversion hformat hconversion' hformat' hbehind
      rw [ih hrest']

/-- What is read as some pieces is what is written for them. -/
theorem ReadsAs.eq_flatMap {t : Text} {items : List Item} (h : ReadsAs t items) :
    t = items.flatMap Item.text := by
  induction h with
  | done => rfl
  | @char c r items hopening hclosing _ ih =>
    rw [List.flatMap_cons, Item.text_char hopening hclosing, ← ih]
    rfl
  | opening _ ih =>
    rw [List.flatMap_cons, ← ih]
    rfl
  | closing _ ih =>
    rw [List.flatMap_cons, ← ih]
    rfl
  | field _ _ _ _ ih =>
    rw [List.flatMap_cons, ← ih]
    simp [Item.text]

/-- What a piece needs to be read as it is written. -/
def Item.IsSound : Item → Prop
  | .char _ => True
  | .field expression conversion format =>
    IsExpression expression ∧ IsConversion conversion ∧ IsFormat format

/-- A text is read as some pieces exactly if it is what is written for them, and they are read as
they are written. -/
theorem readsAs_iff {t : Text} {items : List Item} :
    ReadsAs t items ↔ t = items.flatMap Item.text ∧ ∀ item ∈ items, item.IsSound := by
  constructor
  · intro h
    refine ⟨h.eq_flatMap, ?_⟩
    induction h with
    | done => exact List.forall_mem_nil _
    | char _ _ _ ih => exact List.forall_mem_cons.mpr ⟨trivial, ih⟩
    | opening _ ih => exact List.forall_mem_cons.mpr ⟨trivial, ih⟩
    | closing _ ih => exact List.forall_mem_cons.mpr ⟨trivial, ih⟩
    | field hexpression hconversion hformat _ ih =>
      exact List.forall_mem_cons.mpr ⟨⟨hexpression, hconversion, hformat⟩, ih⟩
  · rintro ⟨rfl, hsound⟩
    induction items with
    | nil => exact .done
    | cons item items ih =>
      rw [List.forall_mem_cons] at hsound
      have hrest := ih hsound.2
      cases item with
      -- Braces are doubled, other characters stand for themselves.
      | char c =>
        by_cases hopening : c = '\x7b'
        · subst hopening
          exact .opening hrest
        by_cases hclosing : c = '\x7d'
        · subst hclosing
          exact .closing hrest
        rw [List.flatMap_cons, Item.text_char hopening hclosing]
        exact .char hopening hclosing hrest
      | field expression conversion format =>
        obtain ⟨hexpression, hconversion, hformat⟩ := hsound.1
        have hfield := ReadsAs.field hexpression hconversion hformat hrest
        simpa [Item.text] using hfield

/-- The text is an f-string that is read as the pieces. -/
def StringReadsAs (o : Text) (items : List Item) : Prop :=
  ∃ q inner, isQuote q = true ∧ o = 'f' :: q :: (inner ++ [q]) ∧ q ∉ inner ∧ ReadsAs inner items

/-- A string reads in one way only. -/
theorem StringReadsAs.unique {o : Text} {items items' : List Item} (h : StringReadsAs o items)
    (h' : StringReadsAs o items') : items = items' := by
  obtain ⟨q, inner, -, rfl, -, hreads⟩ := h
  obtain ⟨q', inner', -, ho, -, hreads'⟩ := h'
  simp only [List.cons.injEq, true_and] at ho
  obtain ⟨rfl, ho⟩ := ho
  rw [List.append_cancel_right ho] at hreads
  exact hreads.unique hreads'

end CodeTidy.Python
