import CodeTidy.Json.Reader
import CodeTidy.Json.Writer

/-!
# `CodeTidy.Proofs.Json.Strings`: strings are read as they were written

Between its quotes a string holds plain characters and escapes, and no control
character. The theorems:

* `string?_split`: what is read as a string, and that it is read alike in front
  of any other text.
* `string?_writeString`: strings read back, in ASCII too.
-/

set_option autoImplicit false

namespace CodeTidy.Json

/-! ### What stands between the quotes -/

/-- A character that stands for itself in a string. -/
def isPlain (c : Char) : Bool := c != '"' && c != '\\' && 32 ≤ c.toNat

/-- What may stand between two quotes. -/
inductive StringBody : Text → Prop
  | nil : StringBody []
  | plain {c : Char} {t : Text} (hc : isPlain c = true) (ht : StringBody t) : StringBody (c :: t)
  | escape {c : Char} {t : Text} (hc : 32 ≤ c.toNat) (ht : StringBody t) :
    StringBody ('\\' :: c :: t)

/-- A control character is no hexadecimal digit. -/
theorem hexValue?_control {c : Char} (hc : c.toNat < 32) : hexValue? c = none := by
  have hdigit : ¬c.isDigit = true := by
    intro h
    rw [Char.isDigit, Bool.and_eq_true, decide_eq_true_eq] at h
    have hle : '0'.toNat ≤ c.toNat := h.1
    exact absurd (show 48 ≤ c.toNat from hle) (by omega)
  have hsmall : ¬(decide ('a' ≤ c) && decide (c ≤ 'f')) = true := by
    intro h
    rw [Bool.and_eq_true, decide_eq_true_eq] at h
    have hle : 'a'.toNat ≤ c.toNat := h.1
    exact absurd (show 97 ≤ c.toNat from hle) (by omega)
  have hcapital : ¬(decide ('A' ≤ c) && decide (c ≤ 'F')) = true := by
    intro h
    rw [Bool.and_eq_true, decide_eq_true_eq] at h
    have hle : 'A'.toNat ≤ c.toNat := h.1
    exact absurd (show 65 ≤ c.toNat from hle) (by omega)
  rw [hexValue?, if_neg hdigit, if_neg hsmall, if_neg hcapital]

/-- Hexadecimal digits are plain. -/
theorem isPlain_of_hexValue? {c : Char} {n : Nat} (h : hexValue? c = some n) :
    isPlain c = true := by
  simp only [isPlain, Bool.and_eq_true, bne_iff_ne, ne_eq, decide_eq_true_eq]
  refine ⟨⟨?_, ?_⟩, ?_⟩
  · rintro rfl
    cases h
  · rintro rfl
    cases h
  · refine Nat.le_of_not_lt (fun hcontrol => ?_)
    rw [hexValue?_control hcontrol] at h
    cases h

/-- Hexadecimal digits stand for themselves. -/
theorem isPlain_of_unitValue? {a b c d : Char} {n : Nat} (h : unitValue? a b c d = some n) :
    isPlain a = true ∧ isPlain b = true ∧ isPlain c = true ∧ isPlain d = true := by
  simp only [unitValue?, bind, Option.bind_eq_some_iff] at h
  obtain ⟨_, ha, _, hb, _, hc, _, hd, -⟩ := h
  exact ⟨isPlain_of_hexValue? ha, isPlain_of_hexValue? hb, isPlain_of_hexValue? hc,
    isPlain_of_hexValue? hd⟩

/-- A character that is escaped is no control character. -/
theorem le_of_escapeValue? {c : Char} {n : Nat} (h : escapeValue? c = some n) :
    32 ≤ c.toNat := by
  unfold escapeValue? at h
  split at h
  all_goals first
    | decide
    | cases h

/-! ### Reading unit by unit -/

/-- A character that stands for itself is read as its code. -/
theorem units?_plain {c : Char} (hc : isPlain c = true) (r : Text) :
    units? (c :: r) = (units? r).map (fun p => (c.toNat :: p.1, p.2)) := by
  -- The match on the text has a case for quotes, two for escapes and one for the rest.
  simp only [isPlain, Bool.and_eq_true, bne_iff_ne, ne_eq, decide_eq_true_eq] at hc
  rw [units?.eq_def]
  split
  · rename_i heq
    cases heq
  · rename_i heq
    cases heq
    exact absurd rfl hc.1.1
  · rename_i heq
    cases heq
    exact absurd rfl hc.1.2
  · rename_i heq
    cases heq
    exact absurd rfl hc.1.2
  · rename_i heq
    cases heq
    rw [if_neg (by omega)]
    cases units? r <;> rfl

/-- Four hexadecimal digits behind the escape are read as their value. -/
theorem units?_unit {a b c d : Char} {n : Nat} (h : unitValue? a b c d = some n) (r : Text) :
    units? ('\\' :: 'u' :: a :: b :: c :: d :: r) = (units? r).map (fun p => (n :: p.1, p.2)) := by
  rw [units?, h]
  cases units? r <;> rfl

/-- A short escape is read as what it stands for. -/
theorem units?_escape {c : Char} {n : Nat} (h : escapeValue? c = some n) (r : Text) :
    units? ('\\' :: c :: r) = (units? r).map (fun p => (n :: p.1, p.2)) := by
  rw [units?, h]
  · cases units? r <;> rfl
  · rintro _ _ _ _ _ rfl
    cases h

/-- What is read up to a quote, and that it is read alike in front of any other text. -/
theorem units?_split {t rest : Text} {ns : List Nat} (h : units? t = some (ns, rest)) :
    ∃ body, t = body ++ '"' :: rest ∧ StringBody body ∧
      ∀ rest', units? (body ++ '"' :: rest') = some (ns, rest') := by
  fun_induction units? t generalizing ns rest with
  | case1 => cases h
  | case2 r =>
    cases h
    exact ⟨[], rfl, .nil, fun _ => rfl⟩
  | case3 a b c d r ih =>
    obtain ⟨n, hn, h⟩ := Option.bind_eq_some_iff.mp h
    obtain ⟨p, hr, h⟩ := Option.bind_eq_some_iff.mp h
    cases h
    obtain ⟨body, rfl, hbody, hread⟩ := ih hr
    obtain ⟨ha, hb, hc, hd⟩ := isPlain_of_unitValue? hn
    refine ⟨'\\' :: 'u' :: a :: b :: c :: d :: body, rfl,
      .escape (by decide) (.plain ha (.plain hb (.plain hc (.plain hd hbody)))), ?_⟩
    intro rest'
    show units? ('\\' :: 'u' :: a :: b :: c :: d :: (body ++ '"' :: rest')) = _
    rw [units?_unit hn, hread]
    rfl
  | case4 c r hc ih =>
    obtain ⟨n, hn, h⟩ := Option.bind_eq_some_iff.mp h
    obtain ⟨p, hr, h⟩ := Option.bind_eq_some_iff.mp h
    cases h
    obtain ⟨body, rfl, hbody, hread⟩ := ih hr
    refine ⟨'\\' :: c :: body, rfl, .escape (le_of_escapeValue? hn) hbody, ?_⟩
    intro rest'
    show units? ('\\' :: c :: (body ++ '"' :: rest')) = _
    rw [units?_escape hn, hread]
    rfl
  | case5 c r hquote hunit hescape hcontrol => cases h
  | case6 c r hquote hunit hescape hcontrol ih =>
    obtain ⟨p, hr, h⟩ := Option.bind_eq_some_iff.mp h
    cases h
    obtain ⟨body, rfl, hbody, hread⟩ := ih hr
    have hc : isPlain c = true := by
      simp only [isPlain, Bool.and_eq_true, bne_iff_ne, ne_eq, decide_eq_true_eq]
      refine ⟨⟨hquote, fun hslash => ?_⟩, by omega⟩
      -- A backslash at the end of the text has nothing behind it, not even a quote.
      cases body with
      | nil => exact hescape _ _ hslash rfl
      | cons a body => exact hescape _ _ hslash rfl
    refine ⟨c :: body, rfl, .plain hc hbody, ?_⟩
    intro rest'
    show units? (c :: (body ++ '"' :: rest')) = _
    rw [units?_plain hc, hread]
    rfl

/-- A string takes the text up to its closing quote, whatever comes after that. -/
theorem string?_split {t s rest : Text} (h : string? t = some (s, rest)) :
    ∃ body, t = body ++ '"' :: rest ∧ StringBody body ∧
      ∀ rest', string? (body ++ '"' :: rest') = some (s, rest') := by
  obtain ⟨p, hns, h⟩ := Option.bind_eq_some_iff.mp h
  cases h
  obtain ⟨body, ht, hbody, hread⟩ := units?_split hns
  refine ⟨body, ht, hbody, fun rest' => ?_⟩
  rw [string?, hread]
  rfl

/-! ### Writing character by character -/

/-- The hexadecimal digits stand for themselves. -/
theorem hexValue?_digitChar : (List.range 16).all
    (fun d => hexValue? (Nat.digitChar d) == some d) = true := by decide

/-- The hexadecimal digit of a number is read as that number. -/
theorem hexValue?_of_lt {d : Nat} (hd : d < 16) : hexValue? (Nat.digitChar d) = some d := by
  have h := List.all_eq_true.mp hexValue?_digitChar d (List.mem_range.mpr hd)
  exact beq_iff_eq.mp h

/-- Four digits to base sixteen. -/
theorem hex_four {n : Nat} (hn : n < 0x10000) :
    Text.hex 4 n = [Nat.digitChar (n / 4096), Nat.digitChar (n / 256 % 16),
      Nat.digitChar (n / 16 % 16), Nat.digitChar (n % 16)] := by
  have hstep {k : Nat} (hk : 16 ≤ k) :
      Nat.toDigits 16 k = Nat.toDigits 16 (k / 16) ++ [Nat.digitChar (k % 16)] :=
    Nat.toDigits_of_base_le (by decide) hk
  have hlast {k : Nat} (hk : k < 16) : Nat.toDigits 16 k = [Nat.digitChar k] :=
    Nat.toDigits_of_lt_base hk
  have hzero {k : Nat} (hk : k = 0) : Nat.digitChar k = '0' := by
    rw [hk]
    rfl
  rw [Text.hex]
  -- A number with fewer digits has zeros in front.
  rcases Nat.lt_or_ge n 16 with h | h
  · rw [hlast h, hzero (show n / 4096 = 0 by omega), hzero (show n / 256 % 16 = 0 by omega),
      hzero (show n / 16 % 16 = 0 by omega), Nat.mod_eq_of_lt h]
    rfl
  · rw [hstep h]
    rcases Nat.lt_or_ge (n / 16) 16 with h' | h'
    · rw [hlast h', hzero (show n / 4096 = 0 by omega), hzero (show n / 256 % 16 = 0 by omega),
        Nat.mod_eq_of_lt h']
      rfl
    · rw [hstep h', Nat.div_div_eq_div_mul]
      rcases Nat.lt_or_ge (n / (16 * 16)) 16 with h'' | h''
      · rw [hlast h'', hzero (show n / 4096 = 0 by omega), Nat.mod_eq_of_lt h'']
        rfl
      · rw [hstep h'', Nat.div_div_eq_div_mul, hlast (show n / (16 * 16 * 16) < 16 by omega)]
        rfl

/-- A code unit written as an escape is read as that unit. -/
theorem units?_escapedUnit {n : Nat} (hn : n < 0x10000) (r : Text) :
    units? (escapedUnit n ++ r) = (units? r).map (fun p => (n :: p.1, p.2)) := by
  have hvalue : unitValue? (Nat.digitChar (n / 4096)) (Nat.digitChar (n / 256 % 16))
      (Nat.digitChar (n / 16 % 16)) (Nat.digitChar (n % 16)) = some n := by
    rw [unitValue?, hexValue?_of_lt (by omega), hexValue?_of_lt (by omega),
      hexValue?_of_lt (by omega), hexValue?_of_lt (by omega)]
    exact congrArg some (by omega)
  rw [escapedUnit, hex_four hn]
  exact units?_unit hvalue r

/-- The code units with which a character is written. -/
def unitsOf (ascii : Bool) (c : Char) : List Nat :=
  if ascii && 0x10000 ≤ c.toNat then
    [0xD800 + (c.toNat - 0x10000) / 0x400, 0xDC00 + (c.toNat - 0x10000) % 0x400]
  else [c.toNat]

/-- A character is no surrogate. -/
theorem toNat_range (c : Char) : c.toNat < 0xD800 ∨ 0xDFFF < c.toNat ∧ c.toNat < 0x110000 := c.valid

/-- A character written as escapes is read as its code units. -/
theorem units?_escapedUnits {c : Char} (hc : 126 < c.toNat) (r : Text) :
    units? (escapedUnits c ++ r) =
      (units? r).map (fun p => (unitsOf true c ++ p.1, p.2)) := by
  have hrange := toNat_range c
  rw [escapedUnits, unitsOf, Bool.true_and]
  by_cases hlow : c.toNat < 0x10000
  · rw [if_pos hlow, if_neg (by rw [decide_eq_true_eq]; omega), units?_escapedUnit hlow]
    rfl
  · rw [if_neg hlow, if_pos (by rw [decide_eq_true_eq]; omega), List.append_assoc,
      units?_escapedUnit (by omega), units?_escapedUnit (by omega), Option.map_map]
    rfl

/-- A character is read as the code units with which it has been written, whichever way it has
been. -/
theorem units?_writeChar (ascii : Bool) (c : Char) (r : Text) :
    units? (writeChar ascii c ++ r) =
      (units? r).map (fun p => (unitsOf ascii c ++ p.1, p.2)) := by
  have hsmall {d : Char} (hd : d.toNat < 0x10000) : unitsOf ascii d = [d.toNat] := by
    rw [unitsOf, if_neg]
    simp only [Bool.and_eq_true, decide_eq_true_eq, not_and]
    omega
  unfold writeChar
  split
  · exact (units?_escape (by rfl) r).trans (by rw [hsmall (by decide)]; rfl)
  · exact (units?_escape (by rfl) r).trans (by rw [hsmall (by decide)]; rfl)
  · exact (units?_escape (by rfl) r).trans (by rw [hsmall (by decide)]; rfl)
  · exact (units?_escape (by rfl) r).trans (by rw [hsmall (by decide)]; rfl)
  · exact (units?_escape (by rfl) r).trans (by rw [hsmall (by decide)]; rfl)
  · exact (units?_escape (by rfl) r).trans (by rw [hsmall (by decide)]; rfl)
  · exact (units?_escape (by rfl) r).trans (by rw [hsmall (by decide)]; rfl)
  · -- The characters with an escape of their own are done. Others are written as a number or as
    -- they are.
    rename_i hquote hslash _ _ _ _ _
    by_cases hcontrol : c.toNat < 32
    · rw [if_pos hcontrol, units?_escapedUnit (by omega), hsmall (by omega)]
      rfl
    · rw [if_neg hcontrol]
      by_cases hascii : (ascii && decide (126 < c.toNat)) = true
      · rw [if_pos hascii]
        rw [Bool.and_eq_true, decide_eq_true_eq] at hascii
        rw [units?_escapedUnits hascii.2, hascii.1]
      · have hplain : isPlain c = true := by
          simp only [isPlain, Bool.and_eq_true, bne_iff_ne, ne_eq, decide_eq_true_eq]
          exact ⟨⟨hquote, hslash⟩, by omega⟩
        have hone : unitsOf ascii c = [c.toNat] := by
          rw [unitsOf, if_neg]
          simp only [Bool.and_eq_true, decide_eq_true_eq, not_and] at hascii ⊢
          intro htrue
          have hle := hascii htrue
          omega
        rw [if_neg hascii, hone, List.singleton_append, units?_plain hplain]
        rfl

/-- The units of a character are read as the character. -/
theorem ofUnits_unitsOf (ascii : Bool) (c : Char) (ns : List Nat) :
    Text.ofUnits (unitsOf ascii c ++ ns) = c :: Text.ofUnits ns := by
  have hrange := toNat_range c
  rw [unitsOf]
  split
  · rename_i hlarge
    rw [Bool.and_eq_true, decide_eq_true_eq] at hlarge
    have hpair : 0x10000 + (0xD800 + (c.toNat - 0x10000) / 0x400 - 0xD800) * 0x400 +
        (0xDC00 + (c.toNat - 0x10000) % 0x400 - 0xDC00) = c.toNat := by
      omega
    show Text.ofUnits (_ :: _ :: ns) = _
    rw [Text.ofUnits, if_pos, hpair, Char.ofNat_toNat]
    simp only [Bool.and_eq_true, decide_eq_true_eq]
    omega
  · -- No character is a surrogate, so it does not begin a pair.
    have hcode : Text.ofCode c.toNat = c := by
      rw [Text.ofCode, Text.isSurrogate, if_neg, Char.ofNat_toNat]
      simp only [Bool.and_eq_true, decide_eq_true_eq]
      omega
    cases ns with
    | nil =>
      show [Text.ofCode c.toNat] = _
      rw [hcode]
      rfl
    | cons n ns =>
      show Text.ofUnits (c.toNat :: n :: ns) = _
      rw [Text.ofUnits, if_neg, hcode]
      simp only [Bool.and_eq_true, decide_eq_true_eq]
      omega

/-- Strings read back. -/
theorem string?_writeString (ascii : Bool) (s rest : Text) :
    ∃ r, writeString ascii s ++ rest = '"' :: r ∧ string? r = some (s, rest) := by
  refine ⟨s.flatMap (writeChar ascii) ++ '"' :: rest, by simp [writeString], ?_⟩
  have hunits : units? (s.flatMap (writeChar ascii) ++ '"' :: rest) =
      some (s.flatMap (unitsOf ascii), rest) := by
    induction s with
    | nil => rfl
    | cons c s ih =>
      rw [List.flatMap_cons, List.flatMap_cons, List.append_assoc, units?_writeChar, ih]
      rfl
  have hread : Text.ofUnits (s.flatMap (unitsOf ascii)) = s := by
    clear hunits
    induction s with
    | nil => rfl
    | cons c s ih => rw [List.flatMap_cons, ofUnits_unitsOf, ih]
  rw [string?, hunits]
  exact congrArg (fun t => some (t, rest)) hread

end CodeTidy.Json
