import Mathlib.Data.List.Forall2
import CodeTidy.Proofs.Pattern.Leads
import CodeTidy.Proofs.Python.Defaults

/-!
# `CodeTidy.Proofs.Python.Hints`: annotations for parameters that have none

An annotation is put in behind the name of a parameter and in front of its default, so that both
are read as before. The new parameters are not taken for a return annotation, so that the one
behind them is found. The theorems:

* `Annotates.pair_eq`, `Annotates.run_eq`, `Annotates.insideAfter?_eq`: an annotated parameter has
  the same name and default, and is one parameter of the same header.
* `replaceFirst_returnAnnotation_cases`: the first return annotation that is found is the one
  behind the parameters, or in them.
* `replaceFirst_returnAnnotation`: it is not in them, unless a name holds an arrow.
* `IsHeader.signature?_annotateLine`: a header keeps its names and defaults.
* `signatures_survive`: what safe defaults and annotations keep of any text.
-/

set_option autoImplicit false

namespace CodeTidy.Python

open Pattern Text

/-! ### Annotated parameters -/

/-- The annotations that a default value suggests. -/
def hints : List Text := ["int", "float", "bool", "str", "Optional[Any]", "Any"]

/-- A hint is one of those there are. -/
theorem hintFor_mem (default : Text) : hintFor default ∈ hints := by
  rw [hintFor]
  repeat' split
  all_goals decide

/-- What comes between a name and its default. -/
def hintMark (hint : Text) : Text := ":".toList ++ (" ".toList ++ (hint ++ " =".toList))

/-- Hints hold no marks of parameter lists, and close what they open. -/
theorem hints_spec {hint : Text} (h : hint ∈ hints) :
    brackets.run .start (" ".toList ++ (hint ++ " ".toList)) = .start ∧
      '=' ∉ " ".toList ++ (hint ++ " ".toList) ∧
      Nesting.params.run .start (hintMark hint) = .start ∧ ',' ∉ hintMark hint ∧
      (∀ q ∈ Nesting.params.quotes, q ∉ hintMark hint) ∧
      (hintMark hint).all (CharSet.except "()") = true ∧ '\n' ∉ hintMark hint ∧
      ':' ∉ hint := by
  revert hint
  decide

/-- A parameter without colon and what is made of it: it is kept, or gets an annotation behind its
name. The white space in front of the default may be missing, as it is trimmed away if there is no
default. -/
inductive Annotates (p : Text) : Text → Prop where
  | kept : Annotates p p
  | default {u d gap hint : Text} (hp : p = u ++ '=' :: d) (hu : '=' ∉ u) (hhint : hint ∈ hints)
      (hgap : gap.all isIndent = true) : Annotates p (trim u ++ (hintMark hint ++ (gap ++ trim d)))
  | name (hp : '=' ∉ p) : Annotates p (p ++ ": Any".toList)

/-- What is put together from visible texts begins and ends with no white space. -/
theorem trim_append_eq_self {u r : Text} (hu : trim u = u) (hr : trim r = r) :
    trim (u ++ r) = u ++ r := by
  have hends := ends_trim u
  have hends' := ends_trim r
  rw [hu] at hends
  rw [hr] at hends'
  refine trim_eq_self ?_ ?_
  · rw [List.head?_append]
    cases hhead : u.head? with
    | none => exact hends'.1
    | some c =>
      rw [hhead] at hends
      exact hends.1
  · rw [List.getLast?_append]
    cases hlast : r.getLast? with
    | none => exact hends.2
    | some c =>
      rw [hlast] at hends'
      exact hends'.2

/-- A hint is written without white space around it. -/
theorem trim_hintMark {hint : Text} (h : hint ∈ hints) : trim (hintMark hint) = hintMark hint := by
  revert hint
  decide

/-- A parameter is annotated as parameters are: it is kept, or gets a hint in front of its default
or behind its name. -/
theorem annotates_annotated {p : Text} (htrim : trim p = p) : Annotates p (annotated p) := by
  rw [annotated]
  dsimp only
  split
  · exact .kept
  · -- A default gives the hint. Without one the hint is the general one.
    by_cases hequals : '=' ∈ p
    · obtain ⟨u, d, hp, hu⟩ := List.eq_append_cons_of_mem hequals
      have hname : p.takeWhile (· != '=') = u := by
        rw [hp]
        refine (takeWhile_append_of_head (fun c hc => ?_) rfl).1
        rw [bne_iff_ne]
        rintro rfl
        exact hu hc
      have hcut : cutAt? '=' p = some (u, d) := hp ▸ cutAt?_append hu d
      have hnew : trim u ++ ": " ++ hintFor (trim d) ++ " = " ++ trim d =
          trim u ++ (hintMark (hintFor (trim d)) ++ (" ".toList ++ trim d)) := by simp [hintMark]
      rw [hcut, hname]
      dsimp only
      rw [hnew]
      exact .default hp hu (hintFor_mem _) rfl
    · have hname : p.takeWhile (· != '=') = p := by
        rw [List.takeWhile_eq_self_iff]
        intro c hc
        rw [bne_iff_ne]
        rintro rfl
        exact hequals hc
      have hcut : cutAt? '=' p = none := by
        cases hcut : cutAt? '=' p with
        | none => rfl
        | some pieces =>
          refine absurd ?_ hequals
          rw [eq_of_cutAt? hcut]
          exact List.mem_append_right _ List.mem_cons_self
      rw [hcut, hname, htrim]
      exact .name hequals

section

variable {p q : Text}

/-- An annotated parameter stays one without the white space around it: behind the equals sign there
may be some, if there is no default. -/
theorem Annotates.trimmed (h : Annotates p q) (htrim : trim p = p) : Annotates p (trim q) := by
  cases h with
  | kept =>
    rw [htrim]
    exact .kept
  | @default u d gap hint hp hu hhint hgap =>
    by_cases hnone : trim d = []
    · have hdrop : trim ((trim u ++ hintMark hint) ++ gap) =
          trim u ++ hintMark hint := by
        have haround := trim_around List.all_nil (all_isBlank_of_isIndent hgap)
          (trim u ++ hintMark hint)
        rw [List.nil_append] at haround
        rw [haround, trim_append_eq_self (trim_trim u) (trim_hintMark hhint)]
      have hdefault := Annotates.default hp hu hhint List.all_nil
      rw [hnone, List.nil_append, List.append_nil] at hdefault
      rwa [hnone, List.append_nil, ← List.append_assoc, hdrop]
    · -- The default ends visibly, so nothing is trimmed off.
      have hbehind : trim (hintMark hint ++ (gap ++ trim d)) =
          hintMark hint ++ (gap ++ trim d) := by
        refine trim_eq_self rfl ?_
        obtain ⟨c, hc⟩ := Option.ne_none_iff_exists'.mp (mt List.getLast?_eq_none_iff.mp hnone)
        have hlast := (ends_trim d).2
        rw [hc] at hlast
        rw [List.getLast?_append, List.getLast?_append, hc]
        exact hlast
      rw [trim_append_eq_self (trim_trim u) hbehind]
      exact .default hp hu hhint hgap
  | name hp =>
    have hany : trim ": Any".toList = ": Any".toList := by decide
    rw [trim_append_eq_self htrim hany]
    exact .name hp

/-- A part of a parameter in front of its equals sign holds no colon, if the parameter holds
none. -/
theorem all_except_of_subset (hcolon : ':' ∉ p) {u : Text} (hu : '=' ∉ u) (hsub : u ⊆ p) :
    u.all (CharSet.except ":=") = true :=
  all_except_iff.mpr (List.forall_mem_cons.mpr
    ⟨fun hmem => hcolon (hsub hmem), List.forall_mem_singleton.mpr hu⟩)

/-- The name and the default are read as before. -/
theorem Annotates.pair_eq (h : Annotates p q) (hcolon : ':' ∉ p) :
    (Param.ofText q).pair = (Param.ofText p).pair := by
  cases h with
  | kept => rfl
  | @default u d gap hint hp hu hhint hgap =>
    have hsub : u ⊆ p := fun c hc => hp ▸ List.mem_append_left _ hc
    -- The hint stands between the colon and the equals sign, which are the first of their kind.
    have hsplit : trim u ++ (hintMark hint ++ (gap ++ trim d)) =
        trim u ++ ':' :: ((" ".toList ++ (hint ++ " ".toList)) ++ '=' :: (gap ++ trim d)) := by
      simp [hintMark]
    have htrim := all_except_of_subset hcolon (fun hmem => hu (trim_subset u hmem))
      (List.Subset.trans (trim_subset u) hsub)
    obtain ⟨hclosed, hequals, -⟩ := hints_spec hhint
    rw [hsplit, ofText_closed htrim hequals hclosed, trim_trim,
      trim_blanks_append (all_isBlank_of_isIndent hgap), trim_trim, hp,
      ofText_equals (all_except_of_subset hcolon hu hsub)]
    rfl
  | name hp =>
    have hname := all_except_of_subset hcolon hp (List.Subset.refl p)
    show (Param.ofText (p ++ ':' :: " Any".toList)).pair = _
    rw [ofText_colon hname, ofText_name hname]
    rfl

/-- It opens and closes the same brackets and quotes, and is cut no more than before. -/
theorem Annotates.run_eq (h : Annotates p q) :
    Nesting.params.run .start q = Nesting.params.run .start p ∧
      (Nesting.params.cut p = [p] → Nesting.params.cut q = [q]) := by
  have hstart := Nesting.admits_start Nesting.params
  cases h with
  | kept => exact ⟨rfl, id⟩
  | @default u d gap hint hp hu hhint hgap =>
    obtain ⟨-, -, hclosed, hcomma, hquotes, -⟩ := hints_spec hhint
    have hblanks := all_isBlank_of_isIndent hgap
    have hx := hstart.run u
    -- Neither an equals sign nor a hint changes what is open.
    have hequals : Nesting.params.run (Nesting.params.run .start u) "=".toList =
        Nesting.params.run .start u := hx.run_neutral (by decide) (by decide)
    have hsplit : p = u ++ ("=".toList ++ d) := hp
    constructor
    · rw [hsplit, Nesting.run_append, run_trim hstart, Nesting.run_append,
        hx.run_neutral hclosed hquotes, Nesting.run_append, hx.run_blanks (by decide) hblanks,
        run_trim hx, Nesting.run_append, Nesting.run_append, hequals]
    · intro hcut
      rw [hsplit, Nesting.cut, Nesting.uncut_append_iff, Nesting.uncut_append_iff (u := "=".toList),
        hequals] at hcut
      have hblank : ',' ∉ gap := not_mem_of_all hgap (by decide)
      rw [Nesting.cut, Nesting.uncut_append_iff, run_trim hstart, uncut_trim_iff hstart,
        Nesting.uncut_append_iff (u := hintMark hint), hx.run_neutral hclosed hquotes,
        Nesting.uncut_append_iff (u := gap), hx.run_blanks (by decide) hblanks, uncut_trim_iff hx]
      exact ⟨hcut.1, Nesting.uncut_of_not_mem hcomma _, Nesting.uncut_of_not_mem hblank _, hcut.2.2⟩
  | name hp =>
    have hx := hstart.run p
    constructor
    · rw [Nesting.run_append]
      exact hx.run_neutral (by decide) (by decide)
    · intro hcut
      rw [Nesting.cut, Nesting.uncut_append_iff]
      exact ⟨hcut, Nesting.uncut_of_not_mem (by decide) _⟩

/-- White space around a text opens and closes no parenthesis. -/
theorem insideAfter?_trim (inside : Bool) (t : Text) :
    insideAfter? inside (trim t) = insideAfter? inside t := by
  obtain ⟨s, s', ht, hs, hs'⟩ := exists_blanks_around t
  conv_rhs => rw [ht]
  rw [insideAfter?_append_left (all_except_of_all hs (by decide)), insideAfter?_append]
  cases insideAfter? inside (trim t) with
  | none => rfl
  | some inside' => exact (insideAfter?_eq_self (all_except_of_all hs' (by decide)) inside').symm

/-- Its parentheses are those that were there before. -/
theorem Annotates.insideAfter?_eq (h : Annotates p q) (inside : Bool) :
    insideAfter? inside q = insideAfter? inside p := by
  cases h with
  | kept => rfl
  | @default u d gap hint hp hu hhint hgap =>
    have hplain {w : Text} (hw : w.all (CharSet.except "()") = true) (r : Text) (inside : Bool) :
        insideAfter? inside (w ++ r) = insideAfter? inside r := insideAfter?_append_left hw inside r
    obtain ⟨-, -, -, -, -, hmark, -⟩ := hints_spec hhint
    have hsplit : p = u ++ ("=".toList ++ d) := hp
    rw [hsplit, insideAfter?_append, insideAfter?_append, insideAfter?_trim]
    refine Option.bind_congr fun inside' _ => ?_
    rw [hplain hmark, hplain (all_except_of_all hgap (by decide)), hplain (by decide),
      insideAfter?_trim]
  | name hp =>
    rw [insideAfter?_append]
    cases insideAfter? inside p with
    | none => rfl
    | some inside' => exact insideAfter?_eq_self (by decide) inside'

/-- An annotated parameter is not empty. -/
theorem Annotates.ne_nil (h : Annotates p q) (hp : p ≠ []) : q ≠ [] := by
  cases h with
  | kept => exact hp
  | default => simp [hintMark]
  | name => simp

/-- An annotated parameter stays on its line. -/
theorem Annotates.not_mem (h : Annotates p q) (hp : '\n' ∉ p) : '\n' ∉ q := by
  cases h with
  | kept => exact hp
  | @default u d gap hint hsplit hu hhint hgap =>
    have hu' : '\n' ∉ trim u := fun hmem =>
      hp (hsplit ▸ List.mem_append_left _ (trim_subset u hmem))
    have hd : '\n' ∉ trim d := fun hmem =>
      hp (hsplit ▸ List.mem_append_right _ (List.mem_cons_of_mem _ (trim_subset d hmem)))
    have hgap' : '\n' ∉ gap := not_mem_of_all hgap (by decide)
    obtain ⟨-, -, -, -, -, -, hmark, -⟩ := hints_spec hhint
    simp [hu', hd, hgap', hmark]
  | name => simp [hp]

end

/-! ### The return annotation -/

/-- A parenthesis is closed in the text, and what comes behind it could be taken for a return
annotation. -/
def Hides (t : Text) : Prop :=
  ∃ x z r, t = x ++ ')' :: (z ++ ':' :: r) ∧ (∀ c ∈ ",):".toList, c ∉ z) ∧ "->".toList <:+: z

/-- A parenthesis in a list of parameters is in one of them, as is what comes behind it. -/
theorem exists_of_hides_joinWith {qs : List Text} (h : Hides (joinWith ", " qs)) :
    ∃ q ∈ qs, Hides q := by
  induction qs with
  | nil =>
    obtain ⟨x, z, r, heq, -⟩ := h
    cases x <;> cases heq
  | cons q qs ih =>
    cases qs with
    | nil =>
      rw [joinWith_singleton] at h
      exact ⟨q, List.mem_cons_self, h⟩
    | cons q' qs =>
      obtain ⟨x, z, r, heq, hz, harrow⟩ := h
      rw [joinWith_cons_cons] at heq
      rcases append_eq_append_cons heq with ⟨y, rfl, hy⟩ | ⟨a, rfl, ha⟩
      · -- The colon comes before the comma behind the parameter.
        have hcomma : ',' ∉ z ++ [':'] := by simp [hz ',' (by decide)]
        have hy' : (z ++ [':']) ++ r = y ++ ',' :: (' ' :: joinWith ", " (q' :: qs)) := by
          rw [List.append_assoc]
          exact hy
        obtain ⟨b, rfl, -⟩ := exists_of_append_eq hcomma hy'
        exact ⟨_, List.mem_cons_self, x, z, b, by simp, hz, harrow⟩
      · obtain ⟨b, rfl, hrest⟩ := exists_of_append_eq (by decide) ha
        obtain ⟨p, hp, hhides⟩ := ih ⟨b, z, r, hrest, hz, harrow⟩
        exact ⟨p, List.mem_cons_of_mem q hp, hhides⟩

/-- What comes behind a colon holds no other one, so that the arrow stands in front of it. -/
theorem infix_of_hides {v w : Text} (hv : ':' ∉ v) (hw : ':' ∉ w) (h : Hides (v ++ ':' :: w)) :
    "->".toList <:+: v := by
  obtain ⟨x, z, r, heq, hz, harrow⟩ := h
  have hsplit : v ++ ':' :: w = (x ++ ')' :: z) ++ ':' :: r := by simp [heq]
  obtain ⟨b, hb, hrest⟩ := exists_of_append_eq (w := x ++ ')' :: z) hv (by simpa using hsplit)
  have hnil : b = [] := by
    cases b with
    | nil => rfl
    | cons c b =>
      obtain ⟨-, rfl⟩ := List.cons.inj hrest
      simp at hw
  rw [hnil, List.append_nil] at hb
  rw [← hb]
  exact harrow.trans ((List.suffix_cons _ z).trans (List.suffix_append x _)).isInfix

section

variable {p q : Text}

/-- No parameter is taken for a return annotation, unless its name holds an arrow. -/
theorem Annotates.infix_of_hides (h : Annotates p q) (htrim : trim p = p) (hcolon : ':' ∉ p)
    (hhides : Hides q) : "->".toList <:+: (Param.ofText p).name := by
  cases h with
  | kept =>
    obtain ⟨x, z, r, rfl, -⟩ := hhides
    simp at hcolon
  | @default u d gap hint hp hu hhint hgap =>
    have hsub : u ⊆ p := fun c hc => hp ▸ List.mem_append_left _ hc
    -- The only colon is the one of the hint, so the arrow stands in front of it.
    have hd : ':' ∉ trim d := fun hmem =>
      hcolon (hp ▸ List.mem_append_right _ (List.mem_cons_of_mem _ (trim_subset d hmem)))
    have hgap' : ':' ∉ gap := not_mem_of_all hgap (by decide)
    obtain ⟨-, -, -, -, -, -, -, hcolon'⟩ := hints_spec hhint
    rw [hp, ofText_equals (all_except_of_subset hcolon hu hsub)]
    refine Python.infix_of_hides (w := " ".toList ++ (hint ++ " =".toList) ++ (gap ++ trim d))
      ?_ ?_ ?_
    · exact fun hmem => hcolon (hsub (trim_subset u hmem))
    · simp [hcolon', hgap', hd]
    · simpa [hintMark] using hhides
  | name hp =>
    rw [ofText_name (all_except_of_subset hcolon hp (List.Subset.refl p)), htrim]
    exact Python.infix_of_hides hcolon (by decide) hhides

end

/-- What the pass writes for the result of a function. -/
def results : List Text := ["None", "Any"]

/-- A result type is one word. -/
theorem results_spec {res : Text} (h : res ∈ results) :
    res.all isWord = true ∧ res ≠ [] ∧ ':' ∉ res ∧ '\n' ∉ res := by
  revert res
  decide

section

variable {before joined res s rest : Text}

/-- What the pattern for return annotations matches, and what it puts there. -/
theorem exists_of_returnAnnotation {t w : Text} {m : Match}
    (hm : MatchesBehind returnAnnotation t w m) :
    ∃ z n, t = w ++ ')' :: (z ++ ':' :: m.stop.after) ∧ (∀ c ∈ ",():".toList, c ∉ z) ∧
      "->".toList <:+: z ∧ n.all isWord = true ∧ m.group 1 = n := by
  obtain ⟨u, hu, -, -⟩ := exists_reads_of_matchAt? hm.2
  have hsplit : t = w ++ u ++ m.stop.after := (hm.1.trans hu).after_eq
  have hspells := hm.spells
  have hremembers : Remembers 1 Pattern.word returnAnnotation :=
    .right rfl (.right rfl (.right rfl (.left .group rfl)))
  obtain ⟨k, -, ⟨hk, -, -⟩, hgroups⟩ := hremembers.exists_spells rfl hspells
  have hgroup : m.group 1 = k := by
    rw [group_eq, hgroups]
    rfl
  rw [Match.text_of_reads hu] at hspells
  obtain ⟨_, rfl, h₁⟩ := spells_text_then.mp hspells
  obtain ⟨s, hs, -, _, rfl, h₂⟩ := spells_run_then.mp h₁
  obtain ⟨_, rfl, h₃⟩ := spells_text_then.mp h₂
  obtain ⟨n, _, ⟨hn, -, -⟩, _, rfl, h₄⟩ := spells_group_then.mp h₃
  obtain ⟨s', hs', -, _, rfl, h₅⟩ := spells_run_then.mp h₄
  obtain ⟨rfl, -⟩ := spells_text.mp h₅
  refine ⟨s ++ ("-> ".toList ++ (n ++ s')), k, by simpa using hsplit, fun c hc => ?_,
    ⟨s, " ".toList ++ (n ++ s'), by simp⟩, hk, hgroup⟩
  -- The parts in front of the colon are white space, an arrow and a word, which hold none of these.
  have hspec : ∀ c ∈ ",():".toList, isBlank c = false ∧ isWord c = false ∧ c ∉ "-> ".toList := by
    decide
  obtain ⟨hblank, hword, hmark⟩ := hspec c hc
  simp only [List.mem_append, not_or]
  exact ⟨not_mem_of_all hs hblank, hmark, not_mem_of_all hn hword, not_mem_of_all hs' hblank⟩

/-- The pattern matches at the parenthesis that closes the parameters. -/
theorem matchesBehind_returnAnnotation (v : Text) (hres : res ∈ results)
    (hs : s.all isBlank = true) :
    ∃ m, MatchesBehind returnAnnotation (v ++ (") -> ".toList ++ (res ++ (s ++ ':' :: rest)))) v m ∧
      m.group 1 = res ∧ m.stop.after = rest := by
  obtain ⟨hword, hvisible, -, -⟩ := results_spec hres
  generalize ht : v ++ (") -> ".toList ++ (res ++ (s ++ ':' :: rest))) = t
  have hsplit : t = v ++ (")".toList ++ (" ".toList ++ ("-> ".toList ++
      (res ++ (s ++ (":".toList ++ rest)))))) := by simp [← ht]
  obtain ⟨c, hv, hc⟩ := Cursor.exists_reads (c := Cursor.start t) hsplit
  obtain ⟨c₁, h₁, hc₁⟩ := Cursor.exists_reads hc
  obtain ⟨c₂, h₂, hc₂⟩ := Cursor.exists_reads hc₁
  obtain ⟨c₃, h₃, hc₃⟩ := Cursor.exists_reads hc₂
  obtain ⟨c₄, h₄, hc₄⟩ := Cursor.exists_reads hc₃
  obtain ⟨c₅, h₅, hc₅⟩ := Cursor.exists_reads hc₄
  obtain ⟨c₆, h₆, hc₆⟩ := Cursor.exists_reads hc₅
  have hleads : Leads returnAnnotation c [] c₆ [(1, ⟨c₃, c₄⟩)] := by
    refine (leads_text h₁).both (.both (leads_run rfl (Nat.zero_le _) h₂ ?_)
      (.both (leads_text h₃) (.both (.group (leads_run hword ?_ h₄ ?_))
        (.both (leads_run hs (Nat.zero_le _) h₅ ?_) (leads_text h₆)))))
    · rw [hc₂]
      rfl
    · exact List.length_pos_of_ne_nil hvisible
    · rw [hc₄]
      cases s with
      | nil => rfl
      | cons b s =>
        rw [List.all_cons, Bool.and_eq_true] at hs
        exact isWord_of_isBlank hs.1
    · rw [hc₅]
      rfl
  exact ⟨⟨c, c₆, [(1, ⟨c₃, c₄⟩)]⟩, ⟨hv, hleads.matchAt?⟩, Match.group_of_lookup rfl h₄, hc₆⟩

/-- The return annotation that the pattern finds first is the one behind the parameters, or in
them. -/
theorem replaceFirst_returnAnnotation_cases (hbefore : ')' ∉ before) (hres : res ∈ results)
    (hs : s.all isBlank = true) {new : Text}
    (hnew : returnAnnotation.replaceFirst (fun r => ") -> " ++ r.group 1 ++ ":")
      (before ++ '(' :: (joined ++ (") -> ".toList ++ (res ++ (s ++ ':' :: rest))))) = new) :
    new = before ++ '(' :: (joined ++ ')' :: (" -> ".toList ++ res ++ ':' :: rest)) ∨
      ∃ x z n b, joined = x ++ ')' :: (z ++ ':' :: b) ∧ (∀ c ∈ ",():".toList, c ∉ z) ∧
        "->".toList <:+: z ∧ n.all isWord = true ∧ new = before ++
          '(' :: ((x ++ ')' :: (" -> ".toList ++ n ++ ':' :: b)) ++
            (") -> ".toList ++ (res ++ (s ++ ':' :: rest)))) := by
  obtain ⟨m, hm, hgroup, hstop⟩ : ∃ m, MatchesBehind returnAnnotation ((before ++ '(' :: joined) ++
      (") -> ".toList ++ (res ++ (s ++ ':' :: rest)))) (before ++ '(' :: joined) m ∧
        m.group 1 = res ∧ m.stop.after = rest := matchesBehind_returnAnnotation _ hres hs
  have hwhole : before ++ '(' :: (joined ++ (") -> ".toList ++ (res ++ (s ++ ':' :: rest)))) =
      (before ++ '(' :: joined) ++ (") -> ".toList ++ (res ++ (s ++ ':' :: rest))) := by simp
  rw [hwhole] at hnew
  obtain ⟨w, m', hm', hle, hfind⟩ := exists_first hm
  have hstart : m'.start.pos = w.length := by
    rw [hm'.1.pos_eq]
    exact Nat.zero_add _
  obtain ⟨z, n, hsplit, hz, harrow, hn, hgroup'⟩ := exists_of_returnAnnotation hm'
  rw [Pattern.replaceFirst, hfind] at hnew
  dsimp only at hnew
  rw [hgroup', hstart, hsplit, List.take_left] at hnew
  -- At the place behind the parameters there is one match only.
  have hsame (hw : w = before ++ '(' :: joined) :
      new = before ++ '(' :: (joined ++ ')' :: (" -> ".toList ++ res ++ ':' :: rest)) := by
    subst hw
    have hplace : m'.start = m.start := hm'.1.unique hm.1
    obtain rfl : m' = m := Option.some.inj (hm'.2.symm.trans (hplace ▸ hm.2))
    rw [← hnew, ← hgroup', hgroup, hstop]
    simp
  rcases List.append_eq_append_iff.mp hsplit with ⟨a, hw, -⟩ | ⟨a, hv, ha⟩
  · have ha : a = [] := by
      rw [hw, List.length_append] at hle
      exact List.eq_nil_of_length_eq_zero (by omega)
    exact .inl (hsame (by rw [hw, ha, List.append_nil]))
  · cases a with
    | nil => exact .inl (hsame (by rw [hv, List.append_nil]))
    | cons c y =>
      have hclosed : ")".toList ++ (" -> ".toList ++ (res ++ (s ++ ':' :: rest))) =
          ") -> ".toList ++ (res ++ (s ++ ':' :: rest)) := rfl
      rw [← hclosed] at ha
      obtain ⟨rfl, hy⟩ : ')' = c ∧
          z ++ ':' :: m'.stop.after = y ++ ')' :: (" -> ".toList ++ (res ++ (s ++ ':' :: rest))) :=
        List.cons.inj ha
      have hclose : ')' ∉ z ++ [':'] := by simp [hz ')' (by decide)]
      obtain ⟨b, rfl, hb⟩ := exists_of_append_eq (v := m'.stop.after) hclose
        (by rw [List.append_assoc]; exact hy)
      have hopen : ')' ∉ before ++ ['('] := by simp [hbefore]
      obtain ⟨x, rfl, hx⟩ := exists_of_append_eq (v := joined) hopen
        (by rw [List.append_assoc]; exact hv)
      refine .inr ⟨x, z, n, b, by simp [hx], hz, harrow, hn, ?_⟩
      rw [← hnew, hb]
      simp

/-- The first return annotation that the pattern finds is the one behind the parameters. -/
theorem replaceFirst_returnAnnotation (hbefore : ')' ∉ before) (hjoined : ¬Hides joined)
    (hres : res ∈ results) (hs : s.all isBlank = true) :
    returnAnnotation.replaceFirst (fun r => ") -> " ++ r.group 1 ++ ":")
        (before ++ '(' :: (joined ++ (") -> ".toList ++ (res ++ (s ++ ':' :: rest))))) =
      before ++ '(' :: (joined ++ ')' :: (" -> ".toList ++ res ++ ':' :: rest)) := by
  rcases replaceFirst_returnAnnotation_cases hbefore hres hs rfl with
    hnew | ⟨x, z, n, b, hinside, hz, harrow, -⟩
  · exact hnew
  · have hspec : ∀ c ∈ ",):".toList, c ∈ ",():".toList := by decide
    exact absurd ⟨x, z, b, hinside, fun c hc => hz c (hspec c hc), harrow⟩ hjoined

end

/-! ### Lines with annotations -/

section

variable {l before params after : Text}

/-- A header without return annotation, and the one that it gets. -/
theorem exists_annotated (h : Concludes [] after) :
    ∃ s rest, after = s ++ ':' :: rest ∧ s.all isBlank = true ∧
      ∀ res ∈ results, Concludes (" -> ".toList ++ res) (" -> ".toList ++ res ++ ':' :: rest) := by
  obtain ⟨-, s, s', comment, hafter, hs, hs', hcomment⟩ := h
  refine ⟨s, s' ++ comment, hafter, hs, fun res hres => ⟨.inr ?_, ?_⟩⟩
  · obtain ⟨-, hvisible, hcolon, -⟩ := results_spec hres
    exact ⟨" ".toList, " ".toList, res, by simp, rfl, rfl, hvisible, hcolon⟩
  · exact ⟨[], s', comment, rfl, rfl, hs', hcomment⟩

/-- What is made of a header without annotations, but for the white space in front of its colon. -/
def annotatedHeader (before params res after : Text) : Text :=
  before ++ '(' :: (joinWith ", " ((splitParams params).map annotated) ++
    (") -> ".toList ++ (res ++ after)))

/-- A line is kept, unless it is a header without annotations. -/
theorem annotateLine_cases (hl : '\n' ∉ l) :
    annotateLine l = l ∨ ∃ before params after, ∃ res ∈ results, IsHeader l before params after ∧
      Concludes [] after ∧ ':' ∉ params ∧ annotateLine l =
        returnAnnotation.replaceFirst (fun r => ") -> " ++ r.group 1 ++ ":")
          (annotatedHeader before params res after) := by
  rw [annotateLine]
  split
  · exact .inl rfl
  · next m hm =>
    dsimp only
    split
    · exact .inl rfl
    · next hannotated =>
      simp only [Bool.or_eq_true, not_or, Bool.not_eq_true, Bool.not_eq_false',
        List.isEmpty_iff] at hannotated
      obtain ⟨hnone, hcolon⟩ := hannotated
      obtain ⟨before, after, hheader, hstart, hstop, -, hconcludes⟩ := exists_of_defLine hl hm
      rw [hnone] at hconcludes
      have hbehind : l.drop (m.groupStop 3 + 1) = after := by
        rw [← List.drop_drop, hstop, hheader.around.2]
        rfl
      -- A constructor gets a result of its own, any other function the general one.
      generalize hres : (if m.group 2 == "__init__".toList then "None" else "Any" : Text) = res
      refine .inr ⟨before, m.group 3, after, res, ?_, hheader, hconcludes,
        by simpa using hcolon, ?_⟩
      · rw [← hres]
        split <;> decide
      · rw [hstart, hheader.around.1, hbehind, annotatedHeader]
        simp only [List.append_assoc, List.cons_append, List.nil_append]

/-- An annotated line is a line. -/
theorem not_mem_annotateLine (hl : '\n' ∉ l) : '\n' ∉ annotateLine l := by
  rcases annotateLine_cases hl with heq | ⟨before, params, after, res, hres, hheader, -, -, heq⟩
  · rwa [heq]
  · have hline := hl
    rw [hheader.eq] at hline
    simp only [List.mem_append, List.mem_cons, not_or] at hline
    have hjoin : '\n' ∉ joinWith ", " ((splitParams params).map annotated) := by
      refine not_mem_joinWith (by decide) fun q hq => ?_
      obtain ⟨p, hp, rfl⟩ := List.mem_map.mp hq
      have hannotates := annotates_annotated ((areParams_splitParams params).trimmed p hp)
      exact hannotates.not_mem fun hmem => hline.2.2.1 (subset_of_mem_splitParams hp hmem)
    rw [heq]
    refine not_mem_replaceFirst ?_ fun v m hm => ?_
    · simp only [annotatedHeader, List.mem_append, List.mem_cons, not_or]
      exact ⟨hline.1, by decide, hjoin, by decide, (results_spec hres).2.2.2, hline.2.2.2.2⟩
    · -- The result that is put back is a word.
      have hremembers : Remembers 1 Pattern.word returnAnnotation :=
        .right rfl (.right rfl (.right rfl (.left .group rfl)))
      obtain ⟨w, -, hword, hgroups⟩ := hremembers.exists_spells rfl hm.spells
      have hgroup : m.group 1 = w := by
        rw [group_eq, hgroups]
        rfl
      have hfeed : '\n' ∉ w := hword.not_mem (by decide)
      simp [hgroup, hfeed]

/-- The list that the pass writes is cut into the annotated parameters. -/
theorem splitParams_annotated (params : Text) :
    splitParams (joinWith ", " ((splitParams params).map annotated)) =
      (splitParams params).map fun p => trim (annotated p) := by
  have hps := areParams_splitParams params
  generalize splitParams params = ps at hps ⊢
  -- An annotated parameter is one parameter.
  have hone {p : Text} (hp : p ∈ ps) : splitParams (annotated p) = [trim (annotated p)] := by
    have hannotates := annotates_annotated (hps.trimmed p hp)
    rw [splitParams_of_uncut (hannotates.run_eq.2 (hps.uncut p hp))]
    refine List.filter_cons_of_pos ?_
    have hvisible := (hannotates.trimmed (hps.trimmed p hp)).ne_nil (hps.visible p hp)
    simpa using hvisible
  have hclosed : ∀ q ∈ (ps.map annotated).dropLast, Nesting.params.run .start q = .start := by
    intro q hq
    rw [← List.map_dropLast] at hq
    obtain ⟨p, hp, rfl⟩ := List.mem_map.mp hq
    have htrim := hps.trimmed p (List.dropLast_subset ps hp)
    rw [(annotates_annotated htrim).run_eq.1]
    exact hps.closed p hp
  -- Parameters that leave nothing open are read one by one.
  calc splitParams (joinWith ", " (ps.map annotated))
      = (ps.map annotated).flatMap splitParams := splitParams_joinWith hclosed
    _ = ps.flatMap fun p => splitParams (annotated p) := List.flatMap_map _ _ _
    _ = ps.flatMap fun p => [trim (annotated p)] := List.flatMap_congr fun _ hp => hone hp
    _ = ps.map fun p => trim (annotated p) := List.map_eq_flatMap.symm

/-- Annotated parameters have no parentheses within parentheses, as the pattern for headers asks. -/
theorem isFlat_annotated (h : IsFlat params) :
    IsFlat (joinWith ", " ((splitParams params).map annotated)) := by
  refine h.map_splitParams fun p hp inside inside' hinside => ?_
  have hannotates := annotates_annotated ((areParams_splitParams params).trimmed p hp)
  rwa [hannotates.insideAfter?_eq]

/-- The names and defaults of a header are those that it had before, unless one of the names holds
an arrow. -/
theorem IsHeader.signature?_annotateLine {res : Text} (h : IsHeader l before params after)
    (hl : '\n' ∉ l) (hnone : Concludes [] after) (hcolon : ':' ∉ params) (hres : res ∈ results)
    (heq : annotateLine l = returnAnnotation.replaceFirst (fun r => ") -> " ++ r.group 1 ++ ":")
      (annotatedHeader before params res after))
    (harrow : ∀ p ∈ splitParams params, ¬"->".toList <:+: (Param.ofText p).name) :
    signature? (annotateLine l) = signature? l := by
  have hps := areParams_splitParams params
  have hannotates {p : Text} (hp : p ∈ splitParams params) : Annotates p (annotated p) :=
    annotates_annotated (hps.trimmed p hp)
  have hcolon' {p : Text} (hp : p ∈ splitParams params) : ':' ∉ p :=
    fun hmem => hcolon (subset_of_mem_splitParams hp hmem)
  have hparams := h.paramTexts?_eq hl
  obtain ⟨s, rest, hafter, hs, hconcludes⟩ := exists_annotated hnone
  have hbefore : ')' ∉ before := by
    obtain ⟨e, hspells⟩ := h.front
    exact hspells.not_mem (by decide)
  have hjoined : ¬Hides (joinWith ", " ((splitParams params).map annotated)) := by
    intro hhides
    obtain ⟨q, hq, hhides'⟩ := exists_of_hides_joinWith hhides
    obtain ⟨p, hp, rfl⟩ := List.mem_map.mp hq
    exact harrow p hp ((hannotates hp).infix_of_hides (hps.trimmed p hp) (hcolon' hp) hhides')
  -- The new line is a header as well, with the annotated parameters.
  have hline : annotateLine l = before ++
      '(' :: (joinWith ", " ((splitParams params).map annotated) ++
        ')' :: (" -> ".toList ++ res ++ ':' :: rest)) := by
    rw [heq, hafter]
    exact replaceFirst_returnAnnotation hbefore hjoined hres hs
  have hheader : IsHeader (annotateLine l) before
      (joinWith ", " ((splitParams params).map annotated))
        (" -> ".toList ++ res ++ ':' :: rest) :=
    ⟨hline, h.front, isFlat_annotated h.flat, _, hconcludes res hres⟩
  rw [signature?, signature?, hheader.paramTexts?_eq (not_mem_annotateLine hl), hparams,
    Option.map_some, Option.map_some, splitParams_annotated, List.map_map]
  refine congrArg some (List.map_congr_left fun p hp => ?_)
  exact ((hannotates hp).trimmed (hps.trimmed p hp)).pair_eq (hcolon' hp)

/-- The line `l` is kept, or it is a header of which the names and defaults are kept, unless one of
the names holds an arrow. -/
def KeepsSignature (l new : Text) : Prop :=
  new = l ∨ ∃ ps, paramTexts? l = some ps ∧
    ((∀ p ∈ ps, ¬"->".toList <:+: (Param.ofText p).name) → signature? new = signature? l)

/-- To annotate a line keeps its signature. -/
theorem keepsSignature_annotateLine (hl : '\n' ∉ l) : KeepsSignature l (annotateLine l) := by
  rcases annotateLine_cases hl with heq | ⟨before, params, after, res, hres, hheader, hnone,
    hcolon, heq⟩
  · exact .inl heq
  · exact .inr ⟨_, hheader.paramTexts?_eq hl,
      hheader.signature?_annotateLine hl hnone hcolon hres heq⟩

/-- The lines of the new text. -/
theorem lines_addTypeHints (t : Text) : lines (addTypeHints t) = (lines t).map annotateLine := by
  have hne : (lines t).map annotateLine ≠ [] := mt List.map_eq_nil_iff.mp (lines_ne_nil t)
  refine lines_unlines hne fun l' hl' => ?_
  obtain ⟨l, hl, rfl⟩ := List.mem_map.mp hl'
  exact not_mem_annotateLine (not_mem_of_mem_lines hl)

/-- Both passes keep all other lines as they are, and put in nothing but guards. Of a header they
keep the names and the defaults, of which those that all calls would share become `None` and get a
guard. For shared defaults this is so exactly if all parameters are safe. -/
theorem signatures_survive (t : Text) :
    Guarded (lines t) (lines (guardMutableDefaults t)) ∧
      List.Forall₂ KeepsSignature (lines t) (lines (addTypeHints t)) := by
  refine ⟨guarded_guardMutableDefaults t, ?_⟩
  rw [lines_addTypeHints, List.forall₂_map_right_iff, List.forall₂_same]
  exact fun l hl => keepsSignature_annotateLine (not_mem_of_mem_lines hl)

end

/-- A function whose calls would share a list. -/
def tagModule : Text := "def tag(text, *, names=[]):\n    return names"

/-- Its parameters are safe, so that both passes keep them. -/
theorem signatures_survive_tagModule :
    (∀ p ∈ ["text".toList, "*".toList, "names=[]".toList], IsSafe p) ∧
      lines (guardMutableDefaults tagModule) = ["def tag(text, *, names=None):".toList,
        "    if names is None:".toList, "        names = []".toList, "    return names".toList] ∧
      signature? "def tag(text, *, names=None):" =
        some [("text".toList, none), ("*".toList, none), ("names".toList, some "None".toList)] ∧
      addTypeHints tagModule =
        "def tag(text: Any, *, names: Any = []) -> Any:\n    return names" ∧
      signature? "def tag(text: Any, *, names: Any = []) -> Any:" =
        some [("text".toList, none), ("*".toList, none), ("names".toList, some "[]".toList)] := by
  obtain ⟨hguarded, hkept⟩ := signatures_survive tagModule
  have hguards : lines (guardMutableDefaults tagModule) = ["def tag(text, *, names=None):".toList,
      "    if names is None:".toList, "        names = []".toList, "    return names".toList] := by
    decide +kernel
  have hhints : addTypeHints tagModule =
      "def tag(text: Any, *, names: Any = []) -> Any:\n    return names" := by decide +kernel
  have hsafe : ∀ p ∈ ["text".toList, "*".toList, "names=[]".toList], IsSafe p := by
    have hspec : ∀ p ∈ ["text".toList, "*".toList, "names=[]".toList], trim p = p ∧
        (withoutMutableDefault p).2 = (Param.ofText p).guard? ∧
        Nesting.params.cutFrom ⟨1, none⟩ (Param.ofText p).hint =
          [(Param.ofText p).hint] := by decide +kernel
    intro p hp
    obtain ⟨htrim, hfound, huncut⟩ := hspec p hp
    exact ⟨(recognized_iff htrim).mp hfound, fun _ => huncut⟩
  have hparams : paramTexts? "def tag(text, *, names=[]):" =
      some ["text".toList, "*".toList, "names=[]".toList] := by decide +kernel
  refine ⟨hsafe, hguards, ?_, hhints, ?_⟩
  · rw [hguards] at hguarded
    have hheader : ∃ guards, GuardsHeader "def tag(text, *, names=[]):"
        "def tag(text, *, names=None):" guards := Guarded.guardsHeader hguarded (by decide)
    obtain ⟨guards, ps, margin, gs, hps, -, -, -, hiff⟩ := hheader
    obtain rfl := Option.some.inj (hparams.symm.trans hps)
    exact (hiff.mpr hsafe).1
  · rw [hhints] at hkept
    have hheader : KeepsSignature "def tag(text, *, names=[]):"
      "def tag(text: Any, *, names: Any = []) -> Any:" := (List.forall₂_cons.mp hkept).1
    rcases hheader with heq | ⟨ps, hps, hsignature⟩
    · exact absurd heq (by decide)
    · obtain rfl := Option.some.inj (hparams.symm.trans hps)
      refine (hsignature (by decide +kernel)).trans ?_
      rw [signature?, hparams]
      decide +kernel

/-- A header whose first annotation compares two numbers. -/
def compareModule : Text := "def keep(rows: 2 > 1, names=[]):\n    return names"

/-- Such an annotation is cut inside of the brackets, and a name is lost. -/
theorem guardMutableDefaults_loses_name :
    lines (guardMutableDefaults compareModule) =
        ["def keep(rows: Optional[2 > 1, names] = None):".toList, "    if rows is None:".toList,
          "        rows = []".toList, "    return names".toList] ∧
    signature? "def keep(rows: 2 > 1, names=[]):" = some [("rows".toList, some "[]".toList)] ∧
    signature? "def keep(rows: Optional[2 > 1, names] = None):" =
      some [("rows".toList, none), ("names]".toList, some "None".toList)] := by
  decide +kernel

end CodeTidy.Python
