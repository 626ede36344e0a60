import CodeTidy.Json.Reader
import CodeTidy.Json.Writer
import CodeTidy.Proofs.Double.Shortest
import CodeTidy.Proofs.Text.Digits

/-!
# `CodeTidy.Proofs.Json.Number`: numbers are read as they were written

A number is read part by part: a whole part, a fraction and an exponent. What
comes after it must not go on with one of them. The theorems:

* `number_decimal`: a number with a fraction or an exponent is the decimal that
  its digits write.
* `number_layout`: both notations of a decimal read back to it.
* `atom_ofInt`, `atom_writeFloat`: whole numbers that are not too long and canonical numbers
  read back.
-/

set_option autoImplicit false

namespace CodeTidy.Json

open Text

/-- Whether the text does not go on a number in front of it. -/
def endsNumber (t : Text) : Bool :=
  t.head?.all (fun c => !(c.isDigit || c == '.' || c == 'e' || c == 'E'))

/-! ### The parts of a number -/

/-- Digits are taken up to what is no digit. -/
theorem takeWhile_digits {ds rest : Text} (hds : ds.all Char.isDigit = true)
    (hrest : rest.head?.all (fun c => !c.isDigit) = true) :
    (ds ++ rest).takeWhile Char.isDigit = ds := by
  rw [List.takeWhile_append_of_pos (List.all_eq_true.mp hds)]
  cases rest with
  | nil => rw [List.takeWhile_nil, List.append_nil]
  | cons c rest =>
    have hc : c.isDigit = false := by simpa using hrest
    rw [List.takeWhile_cons_of_neg (by simp [hc]), List.append_nil]

/-- The whole part of a number: a zero, or digits that do not begin with one. -/
theorem wholePart?_append {ds rest : Text} (hds : ds.all Char.isDigit = true) (hne : ds ≠ [])
    (hzero : ds = ['0'] ∨ ds.head? ≠ some '0')
    (hrest : rest.head?.all (fun c => !c.isDigit) = true) :
    wholePart? (ds ++ rest) = some (ds, rest) := by
  rcases hzero with rfl | hhead
  · rfl
  · rw [wholePart?]
    · rw [takeWhile_digits hds hrest, if_neg (by simpa using hne), List.drop_left]
    · intro r hr
      cases ds with
      | nil => exact hne rfl
      | cons c ds =>
        obtain ⟨rfl, -⟩ := List.cons.inj hr
        exact hhead rfl

/-- A point with digits behind it is read as a fraction. -/
theorem fractionPart_append {ds rest : Text} (hds : ds.all Char.isDigit = true) (hne : ds ≠ [])
    (hrest : rest.head?.all (fun c => !c.isDigit) = true) :
    fractionPart ('.' :: (ds ++ rest)) = (some ds, rest) := by
  rw [fractionPart, takeWhile_digits hds hrest, if_neg (by simpa using hne), List.drop_left]

/-- Without a point there is no fraction. -/
theorem fractionPart_none {t : Text} (h : t.head? ≠ some '.') : fractionPart t = (none, t) := by
  rw [fractionPart]
  intro r hr
  rw [hr] at h
  exact h rfl

/-- The sign of an exponent, which may be missing, and whether it is a minus sign. -/
inductive ExponentSign : Text → Bool → Prop
  | minus : ExponentSign ['-'] true
  | plus : ExponentSign ['+'] false
  | missing : ExponentSign [] false

/-- A text begins with the sign of an exponent, which may be missing. -/
theorem exists_exponentSign (t : Text) : ∃ sign minus body, ExponentSign sign minus ∧
    t = sign ++ body ∧ (sign = [] → ∀ c ∈ body.head?, c ≠ '-' ∧ c ≠ '+') := by
  cases t with
  | nil => exact ⟨[], false, [], .missing, rfl, fun _ c hc => by cases hc⟩
  | cons c t =>
    by_cases hminus : c = '-'
    · exact ⟨['-'], true, t, .minus, by rw [hminus]; rfl, fun h => by cases h⟩
    · by_cases hplus : c = '+'
      · exact ⟨['+'], false, t, .plus, by rw [hplus]; rfl, fun h => by cases h⟩
      · refine ⟨[], false, c :: t, .missing, rfl, ?_⟩
        rintro - _ ⟨⟩
        exact ⟨hminus, hplus⟩

/-- An exponent is a sign, which may be missing, and the digits behind it. -/
theorem exponentPart_cons {e : Char} {sign : Text} {minus : Bool} {body : Text}
    (he : (e == 'e' || e == 'E') = true) (hsign : ExponentSign sign minus)
    (hbody : sign = [] → ∀ c ∈ body.head?, c ≠ '-' ∧ c ≠ '+') :
    exponentPart (e :: (sign ++ body)) =
      if (body.takeWhile Char.isDigit).isEmpty then (none, e :: (sign ++ body))
      else (some (if minus then -(digitsValue (body.takeWhile Char.isDigit) : Int)
        else digitsValue (body.takeWhile Char.isDigit)),
        body.drop (body.takeWhile Char.isDigit).length) := by
  have hvalue := decimalValue?_eq (t := body.takeWhile Char.isDigit) List.all_takeWhile
  cases hsign with
  | minus =>
    show exponentPart (e :: '-' :: body) = _
    rw [exponentPart, if_pos he]
    dsimp only
    rw [hvalue]
    rfl
  | plus =>
    show exponentPart (e :: '+' :: body) = _
    rw [exponentPart, if_pos he]
    dsimp only
    rw [hvalue]
    rfl
  -- Without a sign the body has none at its front, so it is all digits from there on.
  | missing =>
    show exponentPart (e :: body) = _
    rw [exponentPart, if_pos he]
    · dsimp only
      rw [hvalue]
      rfl
    · rintro r rfl
      exact (hbody rfl '-' rfl).1 rfl
    · rintro r rfl
      exact (hbody rfl '+' rfl).2 rfl

/-- The letter with a sign and digits behind it is read as an exponent. -/
theorem exponentPart_append {e : Char} {sign : Text} {minus : Bool} {ds rest : Text}
    (he : (e == 'e' || e == 'E') = true) (hsign : ExponentSign sign minus)
    (hds : ds.all Char.isDigit = true) (hne : ds ≠ [])
    (hrest : rest.head?.all (fun c => !c.isDigit) = true) :
    exponentPart (e :: (sign ++ (ds ++ rest))) =
      (some (if minus then -(digitsValue ds : Int) else digitsValue ds), rest) := by
  have hbody : sign = [] → ∀ c ∈ (ds ++ rest).head?, c ≠ '-' ∧ c ≠ '+' := by
    intro _ c hc
    obtain ⟨d, ds, rfl⟩ := List.exists_cons_of_ne_nil hne
    rw [List.all_cons, Bool.and_eq_true] at hds
    cases hc
    exact ⟨fun h => absurd (h ▸ hds.1) (by decide), fun h => absurd (h ▸ hds.1) (by decide)⟩
  rw [exponentPart_cons he hsign hbody, takeWhile_digits hds hrest, if_neg (by simpa using hne),
    List.drop_left]

/-- Without the letter there is no exponent. -/
theorem exponentPart_none {t : Text} (h : t.head?.all (fun c => !(c == 'e' || c == 'E')) = true) :
    exponentPart t = (none, t) := by
  cases t with
  | nil => rfl
  | cons e r =>
    have he : ¬(e == 'e' || e == 'E') = true := by simpa using h
    unfold exponentPart
    exact if_neg he

/-! ### Whole numbers and decimals -/

/-- Behind a number stands no digit. -/
theorem endsNumber_noDigit {t : Text} (h : endsNumber t = true) :
    t.head?.all (fun c => !c.isDigit) = true := by
  cases t with
  | nil => rfl
  | cons c t =>
    rw [endsNumber, List.head?_cons, Option.all_some, Bool.not_eq_true'] at h
    simp only [Bool.or_eq_false_iff] at h
    rw [List.head?_cons, Option.all_some, h.1.1.1]
    rfl

/-- Behind a number stands no point. -/
theorem endsNumber_noPoint {t : Text} (h : endsNumber t = true) : t.head? ≠ some '.' := by
  cases t with
  | nil => simp
  | cons c t =>
    rintro hpoint
    cases hpoint
    cases h

/-- Behind a number stands no letter of an exponent. -/
theorem endsNumber_noExponent {t : Text} (h : endsNumber t = true) :
    t.head?.all (fun c => !(c == 'e' || c == 'E')) = true := by
  cases t with
  | nil => rfl
  | cons c t =>
    rw [endsNumber, List.head?_cons, Option.all_some, Bool.not_eq_true'] at h
    simp only [Bool.or_eq_false_iff] at h
    rw [List.head?_cons, Option.all_some, h.1.2, h.2]
    rfl

/-- What a number has read: its whole part, its fraction and its exponent. -/
theorem number_eq (negative : Bool) {t rest₁ rest₂ rest : Text} {whole : Text}
    {fraction : Option Text} {exponent : Option Int} (hwhole : wholePart? t = some (whole, rest₁))
    (hfraction : fractionPart rest₁ = (fraction, rest₂))
    (hexponent : exponentPart rest₂ = (exponent, rest))
    (hdigits : (whole ++ fraction.getD []).all Char.isDigit = true) :
    number negative t =
      if fraction.isNone && exponent.isNone then
        if maxNumberDigits < whole.length then .error (.tooManyDigits whole.length)
        else .ok (.int (if negative then -(digitsValue whole : Int) else digitsValue whole), rest)
      else .ok (.float (Double.ofDecimal negative (digitsValue (whole ++ fraction.getD []))
        (exponent.getD 0 - (fraction.getD []).length)), rest) := by
  -- All three parts have been read, and what is left is to tell a whole number from any other.
  rw [number, hwhole]
  simp only [required, bind, Except.bind, pure, Except.pure, hfraction, hexponent,
    decimalValue?_eq hdigits]
  cases hkind : fraction.isNone && exponent.isNone with
  | false => rfl
  | true =>
    rw [Bool.true_and]
    by_cases hlong : maxNumberDigits < whole.length
    · rw [if_pos (decide_eq_true hlong), if_pos rfl, if_pos hlong]
      rfl
    · rw [if_neg (by simpa using hlong), if_pos rfl, if_pos rfl, if_neg hlong]
      rw [Bool.and_eq_true, Option.isNone_iff_eq_none] at hkind
      rw [hkind.1, Option.getD_none, List.append_nil]

/-- Whole numbers that are not too long read back. -/
theorem number_whole (negative : Bool) {n : Nat} {rest : Text} (hrest : endsNumber rest = true)
    (hshort : (Text.ofNat n).length ≤ maxNumberDigits) :
    number negative (Text.ofNat n ++ rest) =
      .ok (.int (if negative then -(n : Int) else n), rest) := by
  have hzero : Text.ofNat n = ['0'] ∨ (Text.ofNat n).head? ≠ some '0' := by
    rcases Nat.eq_zero_or_pos n with rfl | hn
    · exact .inl rfl
    · exact .inr (head_ofNat hn)
  rw [number_eq negative (wholePart?_append (isDigit_ofNat n) (ofNat_ne_nil n) hzero
      (endsNumber_noDigit hrest)) (fractionPart_none (endsNumber_noPoint hrest))
      (exponentPart_none (endsNumber_noExponent hrest)) (by simpa using isDigit_ofNat n),
    if_pos (show (Option.isNone (none : Option Text) && Option.isNone (none : Option Int)) = true
      from rfl), if_neg (by omega), digitsValue_ofNat]

/-! ### Both notations of a decimal -/

/-- A fraction with a point in front of it, if there is one. -/
def fractionText : Option Text → Text
  | none => []
  | some ds => '.' :: ds

/-- An exponent with its sign, if there is one. -/
def exponentText : Option (Bool × Text) → Text
  | none => []
  | some (minus, ds) => 'e' :: (if minus then '-' else '+') :: ds

/-- The number that an exponent stands for. -/
def exponentValue : Option (Bool × Text) → Int
  | none => 0
  | some (minus, ds) => if minus then -(digitsValue ds : Int) else digitsValue ds

/-- An exponent that may be missing is read as it is written. -/
theorem exponentPart_exponentText {exponent : Option (Bool × Text)} {rest : Text}
    (hexponent : ∀ minus ds, exponent = some (minus, ds) → ds.all Char.isDigit = true ∧ ds ≠ [])
    (hrest : endsNumber rest = true) :
    exponentPart (exponentText exponent ++ rest) =
      (exponent.map (fun p => exponentValue (some p)), rest) := by
  cases exponent with
  | none => exact exponentPart_none (endsNumber_noExponent hrest)
  | some p =>
    obtain ⟨minus, ds⟩ := p
    obtain ⟨hds, hne⟩ := hexponent minus ds rfl
    have hsign : ExponentSign [if minus then '-' else '+'] minus := by
      cases minus
      · exact .plus
      · exact .minus
    exact exponentPart_append rfl hsign hds hne (endsNumber_noDigit hrest)

/-- A fraction that may be missing is read as it is written. -/
theorem fractionPart_fractionText {fraction : Option Text} {rest : Text}
    (hfraction : ∀ ds, fraction = some ds → ds.all Char.isDigit = true ∧ ds ≠ [])
    (hpoint : rest.head? ≠ some '.') (hrest : rest.head?.all (fun c => !c.isDigit) = true) :
    fractionPart (fractionText fraction ++ rest) = (fraction, rest) := by
  cases fraction with
  | none => exact fractionPart_none hpoint
  | some ds =>
    obtain ⟨hds, hne⟩ := hfraction ds rfl
    exact fractionPart_append hds hne hrest

/-- The digits in front of the point and behind it are digits. -/
theorem isDigit_parts {whole : Text} {fraction : Option Text}
    (hwhole : whole.all Char.isDigit = true)
    (hfraction : ∀ ds, fraction = some ds → ds.all Char.isDigit = true ∧ ds ≠ []) :
    (whole ++ fraction.getD []).all Char.isDigit = true := by
  rw [List.all_append, hwhole, Bool.true_and]
  cases fraction with
  | none => rfl
  | some ds => exact (hfraction ds rfl).1

/-- A number with a fraction or an exponent is the decimal that its digits write. -/
theorem number_decimal (negative : Bool) (whole : Text) (fraction : Option Text)
    (exponent : Option (Bool × Text)) {rest : Text} (hwhole : whole.all Char.isDigit = true)
    (hne : whole ≠ [])
    (hzero : whole = ['0'] ∨ whole.head? ≠ some '0')
    (hfraction : ∀ ds, fraction = some ds → ds.all Char.isDigit = true ∧ ds ≠ [])
    (hexponent : ∀ minus ds, exponent = some (minus, ds) → ds.all Char.isDigit = true ∧ ds ≠ [])
    (hsome : (fraction.isNone && exponent.isNone) = false) (hrest : endsNumber rest = true) :
    number negative (whole ++ (fractionText fraction ++ (exponentText exponent ++ rest))) =
      .ok (.float (Double.ofDecimal negative (digitsValue (whole ++ fraction.getD []))
        (exponentValue exponent - (fraction.getD []).length)), rest) := by
  -- Neither a fraction nor an exponent begins with a digit, so the part before it ends there.
  have hmore : (exponentText exponent ++ rest).head? ≠ some '.' ∧
      (exponentText exponent ++ rest).head?.all (fun c => !c.isDigit) = true := by
    cases exponent with
    | none => exact ⟨endsNumber_noPoint hrest, endsNumber_noDigit hrest⟩
    | some p => exact ⟨(fun h => by cases h), rfl⟩
  have hpoint : (fractionText fraction ++ (exponentText exponent ++ rest)).head?.all
      (fun c => !c.isDigit) = true := by
    cases fraction with
    | none => exact hmore.2
    | some ds => rfl
  have hdigits := isDigit_parts hwhole hfraction
  have hnone : (fraction.isNone && (exponent.map (fun p => exponentValue (some p))).isNone) =
      false := by
    rw [Option.isNone_map]
    exact hsome
  rw [number_eq negative (wholePart?_append hwhole hne hzero hpoint)
      (fractionPart_fractionText hfraction hmore.1 hmore.2)
      (exponentPart_exponentText hexponent hrest) hdigits, hnone, if_neg Bool.false_ne_true]
  cases exponent <;> rfl

/-- The digits of a positive number in one of the two notations. -/
def layout (n : Nat) (exponent : Int) : Text :=
  let digits := Text.ofNat n
  let top := exponent + digits.length - 1
  if -4 ≤ top && top < 16 then FloatStyle.json.positional digits (top + 1)
  else FloatStyle.scientific digits top

/-- Digits with a point among them are the decimal that all of them write, less as many places as
stand behind the point. -/
theorem number_point (negative : Bool) (whole ds : Text) {rest : Text}
    (hwhole : whole.all Char.isDigit = true) (hne : whole ≠ [])
    (hzero : whole = ['0'] ∨ whole.head? ≠ some '0')
    (hds : ds.all Char.isDigit = true) (hds_ne : ds ≠ []) (hrest : endsNumber rest = true) :
    number negative (whole ++ '.' :: (ds ++ rest)) =
      .ok (.float (Double.ofDecimal negative (digitsValue (whole ++ ds)) (-ds.length)), rest) := by
  have hread := number_decimal negative whole (some ds) none hwhole hne hzero
    (by rintro _ ⟨⟩; exact ⟨hds, hds_ne⟩) (fun _ _ h => nomatch h) rfl hrest
  rw [exponentValue, Int.zero_sub] at hread
  exact hread

section Point

variable {ds rest : Text} (negative : Bool) (hdigits : ds.all Char.isDigit = true) (hne : ds ≠ [])
  (hrest : endsNumber rest = true)
include hdigits hne hrest

/-- The point in front of the digits, behind a zero. -/
theorem number_point_in_front (k : Nat) :
    number negative ("0.".toList ++ (List.replicate k '0' ++ ds) ++ rest) =
      .ok (.float (Double.ofDecimal negative (digitsValue ds) (-(k + ds.length))), rest) := by
  have hzeros : (List.replicate k '0' ++ ds).all Char.isDigit = true := by
    rw [List.all_append, isDigit_zeros, hdigits]
    rfl
  have hvalue : digitsValue (['0'] ++ (List.replicate k '0' ++ ds)) = digitsValue ds := by
    rw [← List.append_assoc, show (['0'] : Text) = List.replicate 1 '0' from rfl,
      List.replicate_append_replicate, digitsValue_zeros_append]
  refine (number_point negative ['0'] _ rfl (List.cons_ne_nil _ _) (.inl rfl) hzeros
    (List.append_ne_nil_of_right_ne_nil _ hne) hrest).trans ?_
  rw [hvalue, List.length_append, List.length_replicate, Int.natCast_add]

/-- The point behind the digits and the zeros that fill up to it. -/
theorem number_point_behind (hhead : ds.head? ≠ some '0') (k : Nat) :
    number negative (ds ++ List.replicate k '0' ++ ".0".toList ++ rest) =
      .ok (.float (Double.ofDecimal negative (digitsValue ds) k), rest) := by
  have hzeros : (ds ++ List.replicate k '0').all Char.isDigit = true := by
    rw [List.all_append, isDigit_zeros, hdigits]
    rfl
  have hvalue : digitsValue (ds ++ List.replicate k '0' ++ ['0']) =
      digitsValue ds * 10 ^ (k + 1) := by
    rw [List.append_assoc, show (['0'] : Text) = List.replicate 1 '0' from rfl,
      List.replicate_append_replicate, digitsValue_append_zeros]
  rw [List.append_assoc]
  refine (number_point negative _ ['0'] hzeros (List.append_ne_nil_of_left_ne_nil hne _)
    (.inr (by rwa [List.head?_append_of_ne_nil _ hne])) rfl (List.cons_ne_nil _ _) hrest).trans ?_
  rw [hvalue, Double.ofDecimal_shift_pow]
  congr 4
  push_cast [List.length_singleton]
  omega

/-- The point among the digits. -/
theorem number_point_among (hhead : ds.head? ≠ some '0') {w : Nat} (hw : 0 < w)
    (hlt : w < ds.length) :
    number negative (ds.take w ++ ".".toList ++ ds.drop w ++ rest) =
      .ok (.float (Double.ofDecimal negative (digitsValue ds) (w - ds.length)), rest) := by
  have hwhole : (ds.take w).all Char.isDigit = true := by
    rw [List.all_eq_true] at hdigits ⊢
    exact fun c hc => hdigits c (List.mem_of_mem_take hc)
  have hfraction : (ds.drop w).all Char.isDigit = true := by
    rw [List.all_eq_true] at hdigits ⊢
    exact fun c hc => hdigits c (List.mem_of_mem_drop hc)
  have hwhole_ne : ds.take w ≠ [] := by
    rw [Ne, List.take_eq_nil_iff]
    exact fun h => h.elim hw.ne' hne
  have hfraction_ne : ds.drop w ≠ [] := by
    rw [Ne, List.drop_eq_nil_iff]
    exact Nat.not_le.mpr hlt
  rw [List.append_assoc, List.append_assoc]
  refine (number_point negative _ _ hwhole hwhole_ne
    (.inr (by rwa [List.head?_take, if_neg hw.ne'])) hfraction hfraction_ne hrest).trans ?_
  rw [List.take_append_drop, List.length_drop]
  congr 4
  omega

end Point

/-- A decimal with the point among its digits or outside of them reads back to it. -/
theorem number_positional (negative : Bool) {n : Nat} (hn : 0 < n) (exponent : Int) {rest : Text}
    (hrest : endsNumber rest = true) :
    number negative (FloatStyle.json.positional (Text.ofNat n)
        (exponent + (Text.ofNat n).length) ++ rest) =
      .ok (.float (Double.ofDecimal negative n exponent), rest) := by
  have hdigits := isDigit_ofNat n
  have hne := ofNat_ne_nil n
  have hhead := head_ofNat hn
  have hvalue := digitsValue_ofNat n
  generalize Text.ofNat n = ds at hdigits hne hhead hvalue ⊢
  subst hvalue
  rw [FloatStyle.positional]
  by_cases hfront : exponent + ds.length ≤ 0
  · rw [if_pos hfront, Text.padLeft, Nat.add_sub_cancel]
    refine (number_point_in_front negative hdigits hne hrest _).trans ?_
    congr 4
    omega
  · rw [if_neg hfront]
    dsimp only
    by_cases hbehind : ds.length ≤ (exponent + ds.length).toNat
    · rw [if_pos hbehind, Text.padRight]
      refine (number_point_behind negative hdigits hne hrest hhead _).trans ?_
      congr 4
      omega
    · rw [if_neg hbehind]
      refine (number_point_among negative hdigits hne hrest hhead (by omega)
        (Nat.not_le.mp hbehind)).trans ?_
      congr 4
      omega

/-- A decimal with the point behind its first digit and a power of ten reads back to it. -/
theorem number_scientific (negative : Bool) {n : Nat} (hn : 0 < n) (top : Int) {rest : Text}
    (hrest : endsNumber rest = true) :
    number negative (FloatStyle.scientific (Text.ofNat n) top ++ rest) =
      .ok (.float (Double.ofDecimal negative n (top + 1 - (Text.ofNat n).length)), rest) := by
  have hdigits := isDigit_ofNat n
  have hne := ofNat_ne_nil n
  have hhead := head_ofNat hn
  have hvalue := digitsValue_ofNat n
  generalize Text.ofNat n = ds at hdigits hne hhead hvalue ⊢
  obtain ⟨d, ds, rfl⟩ := List.exists_cons_of_ne_nil hne
  rw [List.all_cons, Bool.and_eq_true] at hdigits
  -- The exponent has two digits at least.
  generalize hes : Text.padLeft 2 '0' (Text.ofNat top.natAbs) = es
  have hexponent : es.all Char.isDigit = true ∧ es ≠ [] ∧ digitsValue es = top.natAbs := by
    rw [← hes, Text.padLeft]
    refine ⟨?_, List.append_ne_nil_of_right_ne_nil _ (ofNat_ne_nil _), ?_⟩
    · rw [List.all_append, isDigit_zeros, isDigit_ofNat]
      rfl
    · rw [digitsValue_zeros_append, digitsValue_ofNat]
  have hsign : exponentValue (some (decide (top < 0), es)) = top := by
    rw [exponentValue, hexponent.2.2]
    by_cases htop : top < 0
    · rw [decide_eq_true htop, if_pos rfl]
      omega
    · rw [decide_eq_false htop, if_neg Bool.false_ne_true]
      omega
  have hread := number_decimal negative [d] (if ds.isEmpty then none else some ds)
    (some (decide (top < 0), es)) (by simpa using hdigits.1)
    (List.cons_ne_nil _ _) (.inr hhead) (by
      intro ds' hds'
      split at hds'
      · cases hds'
      · cases hds'
        exact ⟨hdigits.2, by simpa using ‹¬ds.isEmpty = true›⟩) (by
      rintro _ _ ⟨⟩
      exact ⟨hexponent.1, hexponent.2.1⟩) (by simp) hrest
  have htext : FloatStyle.scientific (d :: ds) top ++ rest =
      [d] ++ (fractionText (if ds.isEmpty then none else some ds) ++
        (exponentText (some (decide (top < 0), es)) ++ rest)) := by
    rw [FloatStyle.scientific, hes]
    cases ds <;> by_cases htop : top < 0 <;> simp [fractionText, exponentText, htop]
  rw [htext, hread, hsign]
  have hjoin : [d] ++ (if ds.isEmpty then none else some ds).getD [] = d :: ds := by
    cases ds <;> rfl
  have hlength : ((if ds.isEmpty then none else some ds).getD []).length = ds.length := by
    cases ds <;> rfl
  rw [hjoin, hvalue, hlength, List.length_cons]
  congr 4
  push_cast
  omega

/-- Both notations of a decimal read back to it. -/
theorem number_layout (negative : Bool) {n : Nat} (hn : 0 < n) (exponent : Int) {rest : Text}
    (hrest : endsNumber rest = true) :
    number negative (layout n exponent ++ rest) =
      .ok (.float (Double.ofDecimal negative n exponent), rest) := by
  rw [layout]
  split
  · rw [show exponent + ((Text.ofNat n).length : Int) - 1 + 1 =
      exponent + (Text.ofNat n).length by omega]
    exact number_positional negative hn exponent hrest
  · rw [number_scientific negative hn _ hrest]
    congr 4
    omega

/-- Both notations of a decimal begin with a digit. -/
theorem head_layout (n : Nat) (exponent : Int) :
    ∃ c r, layout n exponent = c :: r ∧ c.isDigit = true := by
  have hdigits := isDigit_ofNat n
  obtain ⟨d, ds, hds⟩ := List.exists_cons_of_ne_nil (ofNat_ne_nil n)
  rw [hds, List.all_cons, Bool.and_eq_true] at hdigits
  rw [layout, hds]
  split
  · rw [FloatStyle.positional]
    split
    · exact ⟨'0', _, rfl, rfl⟩
    · dsimp only
      split
      · exact ⟨d, _, rfl, hdigits.1⟩
      · rename_i hwhole _
        obtain ⟨w, hw⟩ := Nat.exists_eq_succ_of_ne_zero (n := Int.toNat _) (by
          exact fun h => hwhole (Int.toNat_eq_zero.mp h))
        rw [hw]
        exact ⟨d, _, rfl, hdigits.1⟩
  · exact ⟨d, _, rfl, hdigits.1⟩

/-! ### Numbers of binary64 -/

/-- Only zeros go, and the exponent makes up for them. -/
theorem trimZeros_spec (steps n : Nat) (exponent : Int) (hn : 0 < n) :
    0 < (Double.trimZeros steps n exponent).1 ∧ ∀ negative,
      Double.ofDecimal negative (Double.trimZeros steps n exponent).1
        (Double.trimZeros steps n exponent).2 = Double.ofDecimal negative n exponent := by
  induction steps generalizing n exponent with
  | zero => exact ⟨hn, fun _ => rfl⟩
  | succ steps ih =>
    rw [Double.trimZeros]
    split
    · rename_i hzero
      rw [Bool.and_eq_true, decide_eq_true_eq] at hzero
      obtain ⟨hpos, hsame⟩ := ih (n / 10) (exponent + 1) (by omega)
      refine ⟨hpos, fun negative => ?_⟩
      rw [hsame, ← Double.ofDecimal_shift, Nat.div_mul_cancel (Nat.dvd_of_mod_eq_zero hzero.2)]
    · exact ⟨hn, fun _ => rfl⟩

/-- How a finite number is written: a sign and a decimal that is read as the number. -/
theorem writeFloat_finite (negative : Bool) {m : Nat} {e : Int} {rest : Text}
    (h : Double.IsCanonical (.finite negative m e)) (hrest : endsNumber rest = true) :
    ∃ t, writeFloat (.finite negative m e) = (if negative then ['-'] else []) ++ t ∧
      number negative (t ++ rest) = .ok (.float (.finite negative m e), rest) ∧
      ∃ c r, t = c :: r ∧ c.isDigit = true := by
  rcases Nat.eq_zero_or_pos m with rfl | hm
  · -- A zero is canonical only at the least exponent.
    obtain ⟨-, -, -, hfull⟩ := h
    obtain rfl : e = Double.minExponent := hfull.resolve_left (by norm_num)
    refine ⟨"0.0".toList, by cases negative <;> rfl, ?_, '0', ['.', '0'], rfl, rfl⟩
    have hread := number_decimal negative ['0'] (some ['0']) none rfl
      (List.cons_ne_nil _ _) (.inl rfl) (by
        rintro _ ⟨⟩
        exact ⟨rfl, List.cons_ne_nil _ _⟩) (fun _ _ h => nomatch h) rfl hrest
    exact hread.trans rfl
  · obtain ⟨hpos, hshortest⟩ := Double.shortest_spec h hm
    generalize hd : Double.shortest m e = d at hpos hshortest
    obtain ⟨n, exponent⟩ := d
    obtain ⟨htrimmed, hsame⟩ := trimZeros_spec 20 n exponent hpos
    generalize ht : Double.trimZeros 20 n exponent = d at htrimmed hsame
    obtain ⟨n', exponent'⟩ := d
    refine ⟨layout n' exponent', ?_, ?_, ?_⟩
    · rw [writeFloat, FloatStyle.write, if_neg hm.ne']
      simp only [FloatStyle.json, hd, ht]
      cases negative <;> rfl
    · rw [number_layout negative htrimmed exponent' hrest, hsame,
        Double.ofDecimal_finite hshortest]
    · exact head_layout n' exponent'

/-! ### Numbers among the other atoms -/

/-- A value that begins with a digit is a number. -/
theorem atom_of_digit {c : Char} {r : Text} (hc : c.isDigit = true) :
    atom (c :: r) = number false (c :: r) := by
  rw [atom.eq_def]
  split
  all_goals first
    | rfl
    | (rename_i heq; cases heq; cases hc)

/-- A value that begins with a minus sign and a digit is a negative number. -/
theorem atom_of_minus {c : Char} {r : Text} (hc : c.isDigit = true) :
    atom ('-' :: c :: r) = number true (c :: r) := by
  have hnone : after? "Infinity" (c :: r) = none := by
    rw [after?, if_neg]
    intro h
    rw [show ("Infinity".toList : Text) = 'I' :: "nfinity".toList from rfl, List.isPrefixOf,
      Bool.and_eq_true, beq_iff_eq] at h
    rw [← h.1] at hc
    cases hc
  rw [atom, hnone]

/-- Whole numbers that are not too long read back. -/
theorem atom_ofInt {n : Int} {rest : Text} (hrest : endsNumber rest = true)
    (hshort : (Text.ofNat n.natAbs).length ≤ maxNumberDigits) :
    atom (Text.ofInt n ++ rest) = .ok (.int n, rest) := by
  -- A number begins with a digit, which tells the reader to read one.
  have hhead (k : Nat) : ∃ c r, Text.ofNat k = c :: r ∧ c.isDigit = true := by
    obtain ⟨c, r, hk⟩ := List.exists_cons_of_ne_nil (ofNat_ne_nil k)
    have hdigits := isDigit_ofNat k
    rw [hk, List.all_cons, Bool.and_eq_true] at hdigits
    exact ⟨c, r, hk, hdigits.1⟩
  cases n with
  | ofNat k =>
    have hread := number_whole false (n := k) hrest hshort
    obtain ⟨c, r, hk, hc⟩ := hhead k
    rw [Text.ofInt, hk, List.cons_append, atom_of_digit hc, ← List.cons_append, ← hk, hread]
    rfl
  | negSucc k =>
    have hread := number_whole true (n := k + 1) hrest hshort
    obtain ⟨c, r, hk, hc⟩ := hhead (k + 1)
    rw [Text.ofInt, hk, List.cons_append, List.cons_append, atom_of_minus hc, ← List.cons_append,
      ← hk, hread]
    rfl

/-- Canonical numbers read back. -/
theorem atom_writeFloat {x : Double} {rest : Text} (hx : Double.IsCanonical x)
    (hrest : endsNumber rest = true) : atom (writeFloat x ++ rest) = .ok (.float x, rest) := by
  cases x with
  | nan => rfl
  | infinity negative => cases negative <;> rfl
  | finite negative m e =>
    obtain ⟨t, hwrite, hread, c, r, rfl, hc⟩ := writeFloat_finite negative hx hrest
    rw [hwrite]
    cases negative with
    | false => exact (atom_of_digit hc).trans hread
    | true => exact (atom_of_minus hc).trans hread

/-! ### What a number has read -/

/-- A character that may stand outside of strings and is no white space. -/
def isMark (c : Char) : Bool := c.isDigit || "+-.,:[]\x7b\x7deEnulltruefalsNIity".toList.contains c

/-- Digits may stand outside of strings. -/
theorem isMark_of_isDigit {ds : Text} (h : ds.all Char.isDigit = true) : ds.all isMark = true := by
  rw [List.all_eq_true] at h ⊢
  intro c hc
  rw [isMark, h c hc, Bool.true_or]

/-- The digits at the start and what is behind them make up the text. -/
theorem takeWhile_append_drop (t : Text) :
    t.takeWhile Char.isDigit ++ t.drop (t.takeWhile Char.isDigit).length = t := by
  have h := List.prefix_iff_eq_append.mp (List.takeWhile_prefix (l := t) Char.isDigit)
  exact h

/-- What is read as a whole part are digits, with no zero in front of others. -/
theorem wholePart?_split {t w r : Text} (h : wholePart? t = some (w, r)) :
    t = w ++ r ∧ w.all Char.isDigit = true ∧ w ≠ [] ∧ (w = ['0'] ∨ w.head? ≠ some '0') := by
  rw [wholePart?.eq_def] at h
  split at h
  · cases h
    exact ⟨rfl, rfl, List.cons_ne_nil _ _, .inl rfl⟩
  · -- Without a zero the whole part is the run of digits, and none of it in front is a zero.
    rename_i hzero
    dsimp only at h
    split at h
    · cases h
    · rename_i hne
      cases h
      refine ⟨(takeWhile_append_drop t).symm, List.all_takeWhile, by simpa using hne, .inr ?_⟩
      intro hhead
      cases t with
      | nil => cases hhead
      | cons c t =>
        rw [List.takeWhile_cons] at hhead
        split at hhead
        · cases hhead
          exact hzero t rfl
        · cases hhead

/-- What is read as a fraction is the fraction's text, with a digit at least. -/
theorem fractionPart_split {t r : Text} {fraction : Option Text}
    (h : fractionPart t = (fraction, r)) :
    t = fractionText fraction ++ r ∧
      ∀ ds, fraction = some ds → ds.all Char.isDigit = true ∧ ds ≠ [] := by
  rw [fractionPart.eq_def] at h
  split at h
  · rename_i r'
    dsimp only at h
    split at h
    · cases h
      exact ⟨rfl, fun _ h => by cases h⟩
    · rename_i hne
      cases h
      refine ⟨congrArg ('.' :: ·) (takeWhile_append_drop r').symm, ?_⟩
      rintro _ ⟨⟩
      exact ⟨List.all_takeWhile, by simpa using hne⟩
  · cases h
    exact ⟨rfl, fun _ h => by cases h⟩

/-- What is read as an exponent is the letter with a sign and a digit at least. -/
theorem exponentPart_split {t r : Text} {n : Int} (h : exponentPart t = (some n, r)) :
    ∃ e sign minus ds, (e == 'e' || e == 'E') = true ∧ ExponentSign sign minus ∧
      t = e :: (sign ++ (ds ++ r)) ∧ ds.all Char.isDigit = true ∧ ds ≠ [] ∧
      n = if minus then -(digitsValue ds : Int) else digitsValue ds := by
  cases t with
  | nil => cases h
  | cons e t =>
    by_cases he : (e == 'e' || e == 'E') = true
    · obtain ⟨sign, minus, body, hsign, rfl, hbody⟩ := exists_exponentSign t
      rw [exponentPart_cons he hsign hbody] at h
      split at h
      · cases h
      · rename_i hne
        cases h
        exact ⟨e, sign, minus, _, he, hsign, by rw [takeWhile_append_drop], List.all_takeWhile,
          by simpa using hne, rfl⟩
    · rw [exponentPart_none (by simpa using he)] at h
      cases h

/-- Where no exponent is read, nothing is passed over. -/
theorem exponentPart_rest {t r : Text} (h : exponentPart t = (none, r)) : r = t := by
  cases t with
  | nil =>
    cases h
    rfl
  | cons e t =>
    by_cases he : (e == 'e' || e == 'E') = true
    · obtain ⟨sign, minus, body, hsign, rfl, hbody⟩ := exists_exponentSign t
      rw [exponentPart_cons he hsign hbody] at h
      split at h
      · cases h
        rfl
      · cases h
    · rw [exponentPart_none (by simpa using he)] at h
      cases h
      rfl

/-- A fraction may stand outside of strings. -/
theorem isMark_fractionText {fraction : Option Text}
    (h : ∀ ds, fraction = some ds → ds.all Char.isDigit = true ∧ ds ≠ []) :
    (fractionText fraction).all isMark = true := by
  cases fraction with
  | none => rfl
  | some ds =>
    rw [fractionText, List.all_cons, isMark_of_isDigit (h ds rfl).1]
    rfl

/-- What an exponent that may be missing takes, and that it is read again in front of any end. -/
theorem exists_exponent {t r : Text} {exponent : Option Int} (h : exponentPart t = (exponent, r)) :
    ∃ x, t = x ++ r ∧ x.all isMark = true ∧ ∀ rest, endsNumber rest = true →
      (x ++ rest).head? ≠ some '.' ∧ (x ++ rest).head?.all (fun c => !c.isDigit) = true ∧
        exponentPart (x ++ rest) = (exponent, rest) := by
  cases exponent with
  | none =>
    obtain rfl := exponentPart_rest h
    exact ⟨[], rfl, rfl, fun rest hrest => ⟨endsNumber_noPoint hrest, endsNumber_noDigit hrest,
      exponentPart_none (endsNumber_noExponent hrest)⟩⟩
  | some n =>
    obtain ⟨e, sign, minus, ds, he, hsign, rfl, hds, hne, rfl⟩ := exponentPart_split h
    have hletter : e = 'e' ∨ e = 'E' := by simpa using he
    refine ⟨e :: (sign ++ ds), by simp, ?_, fun rest hrest => ⟨?_, ?_, ?_⟩⟩
    · rw [List.all_cons, List.all_append, isMark_of_isDigit hds]
      rcases hletter with rfl | rfl <;> cases hsign <;> rfl
    · rcases hletter with rfl | rfl <;> simp
    · rcases hletter with rfl | rfl <;> rfl
    · rw [List.cons_append, List.append_assoc]
      exact exponentPart_append he hsign hds hne (endsNumber_noDigit hrest)

/-- A number takes the text up to its end, whatever comes after that and ends it. -/
theorem number_split {negative : Bool} {t rest : Text} {v : Json}
    (h : number negative t = .ok (v, rest)) (hends : endsNumber rest = true) :
    ∃ u, t = u ++ rest ∧ u.all isMark = true ∧
      ∀ rest', endsNumber rest' = true → number negative (u ++ rest') = .ok (v, rest') := by
  cases hwhole : wholePart? t with
  | none =>
    rw [number, hwhole] at h
    cases h
  | some p =>
    obtain ⟨w, r₁⟩ := p
    obtain ⟨rfl, hw, hne, hzero⟩ := wholePart?_split hwhole
    cases hfraction : fractionPart r₁ with
    | mk fraction r₂ =>
    obtain ⟨rfl, hf⟩ := fractionPart_split hfraction
    cases hexponent : exponentPart r₂ with
    | mk exponent r₃ =>
    have hdigits := isDigit_parts hw hf
    have hread := number_eq negative hwhole hfraction hexponent hdigits
    rw [h] at hread
    have hrest : r₃ = rest := by
      split_ifs at hread <;> cases hread <;> rfl
    subst hrest
    obtain ⟨x, rfl, hxmarks, hxread⟩ := exists_exponent hexponent
    refine ⟨w ++ (fractionText fraction ++ x), by simp, ?_, ?_⟩
    · rw [List.all_append, List.all_append, isMark_of_isDigit hw, isMark_fractionText hf, hxmarks]
      rfl
    · intro rest' hrest'
      obtain ⟨hpoint, hnodigit, hxread'⟩ := hxread rest' hrest'
      -- Neither a fraction nor an exponent begins with a digit, so the digits in front end there.
      have hhead : (fractionText fraction ++ (x ++ rest')).head?.all (fun c => !c.isDigit) =
          true := by
        cases fraction with
        | none => exact hnodigit
        | some ds => rfl
      rw [List.append_assoc, List.append_assoc,
        number_eq negative (wholePart?_append hw hne hzero hhead)
        (fractionPart_fractionText hf hpoint hnodigit) hxread' hdigits]
      split_ifs at hread ⊢ <;> (cases hread; rfl)

/-- What numbers can be read: whole numbers that are not too long, and canonical ones. -/
theorem number_kind {negative : Bool} {t rest : Text} {v : Json}
    (h : number negative t = .ok (v, rest)) :
    (∃ n, v = .int n ∧ (Text.ofNat n.natAbs).length ≤ maxNumberDigits) ∨
      ∃ x, v = .float x ∧ Double.IsCanonical x := by
  cases hwhole : wholePart? t with
  | none =>
    rw [number, hwhole] at h
    cases h
  | some p =>
    obtain ⟨w, r₁⟩ := p
    obtain ⟨-, hw, hne, -⟩ := wholePart?_split hwhole
    cases hfraction : fractionPart r₁ with
    | mk fraction r₂ =>
    obtain ⟨-, hf⟩ := fractionPart_split hfraction
    cases hexponent : exponentPart r₂ with
    | mk exponent r₃ =>
    have hdigits := isDigit_parts hw hf
    rw [number_eq negative hwhole hfraction hexponent hdigits] at h
    split at h
    · split at h
      · cases h
      · rename_i hlong
        -- A number is written with no more digits than it was read from.
        have hshort := length_ofNat_digitsValue_le hw hne
        refine .inl ⟨_, (Prod.mk.inj (Except.ok.inj h)).1.symm, ?_⟩
        cases negative with
        | false => exact hshort.trans (Nat.le_of_not_lt hlong)
        | true =>
          rw [if_pos rfl, Int.natAbs_neg]
          exact hshort.trans (Nat.le_of_not_lt hlong)
    · cases h
      exact .inr ⟨_, rfl, Double.isCanonical_ofDecimal _ _ _⟩

/-! ### What an atom has read -/

/-- A word is passed over where it stands. -/
theorem after?_eq_some_iff {word t rest : Text} : after? word t = some rest ↔ t = word ++ rest := by
  rw [after?]
  constructor
  · intro h
    split at h
    · rename_i hprefix
      cases h
      exact (List.prefix_iff_eq_append.mp (List.isPrefixOf_iff_prefix.mp hprefix)).symm
    · cases h
  · rintro rfl
    rw [if_pos (List.isPrefixOf_iff_prefix.mpr (List.prefix_append _ _)), List.drop_left]

/-- A word is read as its value where it stands. -/
theorem constant_eq_ok_iff {word t rest : Text} {v w : Json} :
    constant word v t = .ok (w, rest) ↔ t = word ++ rest ∧ w = v := by
  rw [constant, ← after?_eq_some_iff]
  cases h : after? word t with
  | none => exact ⟨fun h => (by cases h), fun h => (by cases h.1)⟩
  | some r =>
    constructor
    · intro hr
      cases hr
      exact ⟨rfl, rfl⟩
    · rintro ⟨hr, rfl⟩
      cases hr
      rfl

/-- The values that are written as words. -/
def namedValues : List (Text × Json) := [
  ("null", .null), ("true", .bool true), ("false", .bool false), ("NaN", .float .nan),
  ("Infinity", .float (.infinity false)), ("-Infinity", .float (.infinity true))]

/-- An atom is a word or a number. -/
theorem atom_cases {t rest : Text} {v : Json} (h : atom t = .ok (v, rest)) :
    (∃ word, (word, v) ∈ namedValues ∧ t = word ++ rest) ∨
      (∃ r, t = '-' :: r ∧ number true r = .ok (v, rest)) ∨ number false t = .ok (v, rest) := by
  rw [atom.eq_def] at h
  split at h
  · obtain ⟨ht, rfl⟩ := constant_eq_ok_iff.mp h
    exact .inl ⟨_, by simp [namedValues], ht⟩
  · obtain ⟨ht, rfl⟩ := constant_eq_ok_iff.mp h
    exact .inl ⟨_, by simp [namedValues], ht⟩
  · obtain ⟨ht, rfl⟩ := constant_eq_ok_iff.mp h
    exact .inl ⟨_, by simp [namedValues], ht⟩
  · obtain ⟨ht, rfl⟩ := constant_eq_ok_iff.mp h
    exact .inl ⟨_, by simp [namedValues], ht⟩
  · obtain ⟨ht, rfl⟩ := constant_eq_ok_iff.mp h
    exact .inl ⟨_, by simp [namedValues], ht⟩
  · rename_i r
    -- Behind a minus sign comes the word for infinity, or a number.
    cases hword : after? "Infinity" r with
    | none =>
      rw [hword] at h
      exact .inr (.inl ⟨r, rfl, h⟩)
    | some r' =>
      rw [hword] at h
      cases h
      rw [after?_eq_some_iff] at hword
      exact .inl ⟨"-Infinity".toList, by simp [namedValues], congrArg ('-' :: ·) hword⟩
  · exact .inr (.inr h)

/-- A value that is written as a word is read. -/
theorem atom_named {word : Text} {v : Json} (h : (word, v) ∈ namedValues) (rest : Text) :
    atom (word ++ rest) = .ok (v, rest) := by
  simp only [namedValues, List.mem_cons, List.not_mem_nil, or_false, Prod.mk.injEq] at h
  rcases h with ⟨rfl, rfl⟩ | ⟨rfl, rfl⟩ | ⟨rfl, rfl⟩ | ⟨rfl, rfl⟩ | ⟨rfl, rfl⟩ | ⟨rfl, rfl⟩ <;> rfl

/-- The words may stand outside of strings. -/
theorem isMark_named {word : Text} {v : Json} (h : (word, v) ∈ namedValues) :
    word.all isMark = true := by
  simp only [namedValues, List.mem_cons, List.not_mem_nil, or_false, Prod.mk.injEq] at h
  rcases h with ⟨rfl, -⟩ | ⟨rfl, -⟩ | ⟨rfl, -⟩ | ⟨rfl, -⟩ | ⟨rfl, -⟩ | ⟨rfl, -⟩ <;> rfl

/-- A number begins with a digit behind its sign. -/
theorem head_of_number {negative : Bool} {t : Text} {p : Json × Text}
    (h : number negative t = .ok p) : ∃ c r, t = c :: r ∧ c.isDigit = true := by
  cases hwhole : wholePart? t with
  | none =>
    rw [number, hwhole] at h
    cases h
  | some p =>
    obtain ⟨ht, hw, hne, -⟩ := wholePart?_split hwhole
    obtain ⟨c, w, hc⟩ := List.exists_cons_of_ne_nil hne
    rw [hc, List.all_cons, Bool.and_eq_true] at hw
    exact ⟨c, w ++ p.2, by rw [ht, hc]; rfl, hw.1⟩

/-- An atom takes the text up to its end, whatever comes after that and ends it. -/
theorem atom_split {t rest : Text} {v : Json} (h : atom t = .ok (v, rest))
    (hends : endsNumber rest = true) :
    ∃ u, t = u ++ rest ∧ u.all isMark = true ∧
      ∀ rest', endsNumber rest' = true → atom (u ++ rest') = .ok (v, rest') := by
  rcases atom_cases h with ⟨word, hword, rfl⟩ | ⟨r, rfl, hnumber⟩ | hnumber
  · exact ⟨word, rfl, isMark_named hword, fun rest' _ => atom_named hword rest'⟩
  · obtain ⟨u, rfl, hmarks, hread⟩ := number_split hnumber hends
    refine ⟨'-' :: u, rfl, by rw [List.all_cons, hmarks]; rfl, fun rest' hrest' => ?_⟩
    have hread' := hread rest' hrest'
    obtain ⟨c, r, hc, hdigit⟩ := head_of_number hread'
    show atom ('-' :: (u ++ rest')) = _
    rw [hc] at hread' ⊢
    rw [atom_of_minus hdigit, hread']
  · obtain ⟨u, rfl, hmarks, hread⟩ := number_split hnumber hends
    refine ⟨u, rfl, hmarks, fun rest' hrest' => ?_⟩
    have hread' := hread rest' hrest'
    obtain ⟨c, r, hc, hdigit⟩ := head_of_number hread'
    rw [hc] at hread' ⊢
    rw [atom_of_digit hdigit, hread']

/-- An atom begins with a character that begins no other value. -/
theorem head_of_atom {t : Text} {p : Json × Text} (h : atom t = .ok p) :
    ∃ c r, t = c :: r ∧ (c.isDigit || "ntfNI-".toList.contains c) = true := by
  obtain ⟨v, rest⟩ := p
  rcases atom_cases h with ⟨word, hword, rfl⟩ | ⟨r, rfl, -⟩ | hnumber
  · simp only [namedValues, List.mem_cons, List.not_mem_nil, or_false, Prod.mk.injEq] at hword
    rcases hword with ⟨rfl, -⟩ | ⟨rfl, -⟩ | ⟨rfl, -⟩ | ⟨rfl, -⟩ | ⟨rfl, -⟩ | ⟨rfl, -⟩ <;>
      exact ⟨_, _, rfl, rfl⟩
  · exact ⟨_, _, rfl, rfl⟩
  · obtain ⟨c, r, rfl, hc⟩ := head_of_number hnumber
    exact ⟨c, r, rfl, by rw [hc]; rfl⟩

end CodeTidy.Json
