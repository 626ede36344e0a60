import CodeTidy.Proofs.Notebook.Blocks
import CodeTidy.Proofs.Pattern.Leads

/-!
# `CodeTidy.Proofs.Notebook.Bindings`: the names that lines bind

A function that runs a block declares the names that the block binds as global.
They are read from each line by one pattern, which yields one name at most.
`Binding` lists the forms of lines that bind names, and `Binding.read?` says which
name is read from a line of each form: none from an assignment to several targets
or with one of the operators that the pattern does not know, and the first one
from an import of several names. The theorems:

* `boundName?_assignment`, `boundName?_definition`, `boundName?_module`,
  `boundName?_imports`: the lines from which a name is read.
* `boundName?_eq_none`: those from which none is.
* `boundName?_of_spelled`: what is read from a line of one of the forms.
* `isWord_boundName?`: what is read is a word.
-/

set_option autoImplicit false

namespace CodeTidy

open Pattern Text

namespace Notebook

/-! ### Lines that bind names -/

/-- The words that a line other than an assignment begins with if it binds a name. -/
def bindingWords : List String := ["def", "class", "import", "from", "for"]

/-- A name: a word that is none of these. -/
structure IsName (n : Text) : Prop where
  ne_nil : n ≠ []
  isWord : n.all Text.isWord = true
  not_keyword : ∀ w ∈ bindingWords, n ≠ w.toList

/-- Some white space. -/
structure IsGap (s : Text) : Prop where
  ne_nil : s ≠ []
  isBlank : s.all Text.isBlank = true

/-- A module: words and points. -/
structure IsModule (m : Text) : Prop where
  ne_nil : m ≠ []
  isPart : m.all (fun c => Text.isWord c || c == '.') = true

/-- A text that lists names, with commas between them. -/
inductive Listed : List Text → Text → Prop where
  | one {n : Text} (hn : IsName n) : Listed [n] n
  | more {n s s' t : Text} {ns : List Text} (hn : IsName n) (hs : s.all isBlank = true)
      (hs' : s'.all isBlank = true) (h : Listed ns t) :
      Listed (n :: ns) (n ++ (s ++ ',' :: (s' ++ t)))

/-- The operators that an assignment may be augmented with. -/
def augmentingOperators : List String :=
  ["+", "-", "*", "/", "//", "%", "**", "@", "&", "|", "^", "<<", ">>"]

/-- Those that the pattern knows. -/
def knownOperators : List String := ["+", "-", "*", "/", "//", "%", "**"]

/-- What a line does that binds names. -/
inductive Binding where
  /-- It assigns to one or several targets. -/
  | assignment (targets : List Text)
  /-- It assigns to a name after an operation on it. -/
  | augmented (name : Text) (operator : String)
  /-- It imports names of a module. -/
  | imports (names : List Text)
  /-- It imports a module. -/
  | module (name : Text)
  /-- It defines a function or a class. -/
  | definition (name : Text)

namespace Binding

/-- The names that are bound. -/
def names : Binding → List Text
  | .assignment targets => targets
  | .augmented n _ => [n]
  | .imports ns => ns
  | .module n => [n]
  | .definition n => [n]

/-- The name that is read from the line. -/
def read? : Binding → Option Text
  | .assignment [n] => some n
  | .assignment _ => none
  | .augmented n operator => if operator ∈ knownOperators then some n else none
  | .imports ns => ns.head?
  | .module n => some n
  | .definition n => some n

/-- The line is written that way, from its first character on. -/
inductive Spelled : Binding → Text → Prop where
  | assignment {targets : List Text} {t s value : Text} (ht : Listed targets t)
      (hs : s.all isBlank = true) (hvalue : value.head? ≠ some '=') :
      Spelled (.assignment targets) (t ++ (s ++ '=' :: value))
  | augmented {n s value : Text} {operator : String} (hn : IsName n) (hs : s.all isBlank = true)
      (hoperator : operator ∈ augmentingOperators) (hvalue : value.head? ≠ some '=') :
      Spelled (.augmented n operator) (n ++ (s ++ (operator.toList ++ '=' :: value)))
  | imports {ns : List Text} {m t s s' s'' rest : Text} (hm : IsModule m) (ht : Listed ns t)
      (hs : IsGap s) (hs' : IsGap s') (hs'' : IsGap s'') (hrest : rest.head?.any isWord = false) :
      Spelled (.imports ns)
        ("from".toList ++ (s ++ (m ++ (s' ++ ("import".toList ++ (s'' ++ (t ++ rest)))))))
  | module {n s rest : Text} (hn : IsName n) (hs : IsGap s)
      (hrest : rest.head?.any isWord = false) :
      Spelled (.module n) ("import".toList ++ (s ++ (n ++ rest)))
  | definition {w : String} {n s rest : Text} (hw : w ∈ ["def", "class"]) (hn : IsName n)
      (hs : IsGap s) (hrest : rest.head?.any isWord = false) :
      Spelled (.definition n) (w.toList ++ (s ++ (n ++ rest)))

end Binding

/-! ### The alternatives of the pattern -/

/-- A single target, perhaps with an operator. -/
def assignmentLine : Pattern :=
  seq [.group 1 word, space, opt (oneOf [.one (CharSet.of "-+*/%"), "//", "**"]), "=",
    .notAhead "="]

/-- A function or a class. -/
def definitionLine : Pattern := seq [oneOfWords ["def", "class"], space1, .group 2 word]

/-- A module. -/
def moduleLine : Pattern := seq ["import", space1, .group 3 word]

/-- The first name of a module. -/
def importsLine : Pattern :=
  seq ["from", space1, many1 (fun c => !isBlank c), space1, "import", space1, .group 4 word]

/-- The target of a loop. -/
def loopLine : Pattern := seq ["for", space1, .group 5 word, space1, "in", boundary]

/-- The kinds of lines that bind a name. -/
theorem bindingLine_eq :
    bindingLine = oneOf [assignmentLine, definitionLine, moduleLine, importsLine, loopLine] := rfl

section

variable {c c' : Cursor} {caps caps' : Captures} {n s r u : Text} {x : Char}

/-- A word, the white space behind it and the next character are found in one way. -/
theorem word_blank_inj {n' s' r' : Text} {x' : Char} (hn : n.all isWord = true)
    (hn' : n'.all isWord = true) (hs : s.all isBlank = true) (hs' : s'.all isBlank = true)
    (hx : isBlank x = false) (hx' : isBlank x' = false)
    (hend : (s ++ x :: r).head?.any isWord = false)
    (hend' : (s' ++ x' :: r').head?.any isWord = false)
    (h : n ++ (s ++ x :: r) = n' ++ (s' ++ x' :: r')) : n = n' ∧ x = x' := by
  have hall : ∀ t : Text, t.head?.any isWord = false → t.head?.all (fun a => !isWord a) = true := by
    intro t ht
    cases hhead : t.head? with
    | none => rfl
    | some a => simpa [hhead] using ht
  obtain ⟨rfl, hrest⟩ := append_inj_of_all hn hn' (hall _ hend) (hall _ hend') h
  obtain ⟨-, hrest⟩ := append_inj_of_all hs hs' (by simp [hx]) (by simp [hx']) hrest
  exact ⟨rfl, (List.cons.inj hrest).1⟩

/-- Behind white space, with no word character after it, no word goes on. -/
theorem head?_append_any_isWord (hs : s.all isBlank = true) (hx : isWord x = false) :
    (s ++ x :: r).head?.any isWord = false := by
  cases s with
  | nil => exact hx
  | cons a s =>
    rw [List.all_cons, Bool.and_eq_true] at hs
    exact isWord_of_isBlank hs.1

/-- An assignment has a word in front, and behind it an equals sign or an operator. -/
theorem exists_of_takes_assignmentLine (h : Takes assignmentLine c caps c' caps') :
    ∃ n s x r, c.after = n ++ (s ++ x :: r) ∧ n.all isWord = true ∧ s.all isBlank = true ∧
      CharSet.of "-+*/%=" x = true := by
  obtain ⟨u, hreads, hspells⟩ := h.spells
  simp only [assignmentLine, space, word, many, many1, spells_group_then, spells_run_then,
    spells_run] at hspells
  obtain ⟨n, _, ⟨hn, -, rfl⟩, _, rfl, s, hs, -, _, rfl, hrest⟩ := hspells
  obtain ⟨o, _, ho, w, rfl, hequals⟩ := spells_seq.mp hrest
  obtain ⟨w', rfl, -⟩ := spells_text_then.mp hequals
  have hafter := hreads.after_eq
  rw [spells_opt, spells_oneOf, spells_oneOf, spells_oneOf_one, spells_one, spells_text,
    spells_text] at ho
  rcases ho with (⟨a, ha, rfl, -⟩ | ⟨rfl, -⟩ | ⟨rfl, -⟩) | ⟨rfl, -⟩
  · refine ⟨n, s, a, _, by simpa using hafter, hn, hs, ?_⟩
    simp only [CharSet.of, List.contains_iff_mem] at ha ⊢
    exact List.mem_append_left ['='] ha
  · exact ⟨n, s, '/', _, by simpa using hafter, hn, hs, by decide⟩
  · exact ⟨n, s, '*', _, by simpa using hafter, hn, hs, by decide⟩
  · exact ⟨n, s, '=', _, by simpa using hafter, hn, hs, by decide⟩

/-- What an assignment sign begins with is visible and no word character. -/
theorem isBlank_of_opensAssignment (hx : CharSet.of "-+*/%=" x = true) :
    isBlank x = false ∧ isWord x = false := by
  have hall : "-+*/%=".toList.all (fun y => !isBlank y && !isWord y) = true := by decide
  simp only [CharSet.of, List.contains_iff_mem] at hx
  simpa using List.all_eq_true.mp hall x hx

/-- Where another character follows, there is no assignment. -/
theorem not_takes_assignmentLine (hafter : c.after = n ++ (s ++ x :: r)) (hn : n.all isWord = true)
    (hs : s.all isBlank = true) (hx : isBlank x = false)
    (hend : (s ++ x :: r).head?.any isWord = false) (hset : CharSet.of "-+*/%=" x = false) :
    ¬Takes assignmentLine c caps c' caps' := by
  intro h
  obtain ⟨n', s', x', r', hafter', hn', hs', hx'⟩ := exists_of_takes_assignmentLine h
  obtain ⟨hblank, hword⟩ := isBlank_of_opensAssignment hx'
  obtain ⟨-, rfl⟩ := word_blank_inj hn hn' hs hs' hx hblank hend
    (head?_append_any_isWord hs' hword) (hafter.symm.trans hafter')
  rw [hset] at hx'
  cases hx'

/-- A line that begins with another word does not begin with one of the given words. -/
theorem not_takes_words (ws : List String) {p : Pattern} (hafter : c.after = n ++ r)
    (hn : n.all isWord = true) (hr : r.head?.any isWord = false)
    (hws : ∀ w ∈ ws, w.toList.all isWord = true ∧ n ≠ w.toList) :
    ¬Takes (.both (oneOfWords ws) (.both space1 p)) c caps c' caps' := by
  rintro ⟨c₁, _, hword, c₂, _, ⟨s, hs, hlength, hreads, rfl⟩, -⟩
  obtain ⟨w, hw, hreads', rfl⟩ := takes_oneOfWords hword
  obtain ⟨hisWord, hne⟩ := hws w hw
  cases s with
  | nil => simp at hlength
  | cons a s =>
    rw [List.all_cons, Bool.and_eq_true] at hs
    have hblank := isWord_of_isBlank hs.1
    have hafter' : c.after = w.toList ++ (a :: (s ++ c₂.after)) := by
      rw [hreads'.after_eq, hreads.after_eq, List.cons_append]
    -- Both words end where they do, so they would be the same one.
    have hr' : r.head?.all (fun a => !isWord a) = true := by
      cases r with
      | nil => rfl
      | cons b r => simpa using hr
    obtain ⟨heq, -⟩ := append_inj_of_all hn hisWord hr' (by simp [hblank])
      (hafter.symm.trans hafter')
    exact hne heq

/-- Behind a name that is no word of the pattern only an assignment is possible. -/
theorem not_takes_of_isName (hn : IsName n) (hafter : c.after = n ++ r)
    (hr : r.head?.any isWord = false) :
    ∀ p ∈ [definitionLine, moduleLine, importsLine, loopLine], ¬Takes p c caps c' caps' := by
  have hwords : ∀ ws : List String, ws ⊆ bindingWords →
      ∀ w ∈ ws, w.toList.all isWord = true ∧ n ≠ w.toList := by
    intro ws hws w hw
    have hall : ∀ w ∈ bindingWords, w.toList.all isWord = true := by decide
    exact ⟨hall w (hws hw), hn.not_keyword w (hws hw)⟩
  intro p hp
  simp only [List.mem_cons, List.not_mem_nil, or_false] at hp
  rcases hp with rfl | rfl | rfl | rfl
  · exact not_takes_words ["def", "class"] hafter hn.isWord hr (hwords _ (by decide))
  · exact not_takes_words ["import"] hafter hn.isWord hr (hwords _ (by decide))
  · exact not_takes_words ["from"] hafter hn.isWord hr (hwords _ (by decide))
  · exact not_takes_words ["for"] hafter hn.isWord hr (hwords _ (by decide))

/-- Word characters are visible. -/
theorem isBlank_of_isWord (hx : isWord x = true) : isBlank x = false := by
  rw [Bool.eq_false_iff]
  intro hblank
  rw [isWord_of_isBlank hblank] at hx
  cases hx

/-- No assignment sign begins with a word character. -/
theorem not_opensAssignment_of_isWord (hx : isWord x = true) : CharSet.of "-+*/%=" x = false := by
  rw [Bool.eq_false_iff]
  intro hopens
  rw [(isBlank_of_opensAssignment hopens).2] at hx
  cases hx

/-- What an operator that the pattern knows begins with, or the equals sign if there is none. -/
theorem exists_of_mem_operators {operator : String} (h : operator ∈ "" :: knownOperators)
    (value : Text) :
    ∃ x r, operator.toList ++ '=' :: value = x :: r ∧ CharSet.of "-+*/%=" x = true := by
  simp only [knownOperators, List.mem_cons, List.not_mem_nil, or_false] at h
  rcases h with rfl | rfl | rfl | rfl | rfl | rfl | rfl | rfl
  all_goals exact ⟨_, _, rfl, by decide⟩

/-! ### What is read -/

/-- An equals sign that is not one of two. -/
theorem leads_equals (caps : Captures) {value : Text} (hvalue : value.head? ≠ some '=')
    (hafter : c.after = '=' :: value) :
    ∃ c', Leads (seq ["=", .notAhead "="]) c caps c' caps := by
  obtain ⟨c', hreads, hafter'⟩ := Cursor.exists_reads (u := ['=']) hafter
  have hclosed : ∀ d caps', ¬Takes "=" c' caps d caps' := by
    intro d caps' htakes
    refine hvalue ?_
    rw [← hafter', (takes_text_iff.mp htakes).1.after_eq]
    rfl
  exact ⟨c', (leads_text hreads).both (leads_notAhead hclosed)⟩

/-- An operator in front of an equals sign is passed over as a whole. -/
theorem leads_operator (caps : Captures) {operator : String} {value : Text}
    (hoperator : operator ∈ "" :: knownOperators) (hvalue : value.head? ≠ some '=')
    (hafter : c.after = operator.toList ++ '=' :: value) :
    ∃ c', Leads (seq [opt (oneOf [.one (CharSet.of "-+*/%"), "//", "**"]), "=", .notAhead "="])
      c caps c' caps := by
  obtain ⟨c₁, ⟨-, hbefore, hpos⟩, hafter₁⟩ := Cursor.exists_reads hafter
  obtain ⟨c', hequals⟩ := leads_equals caps hvalue hafter₁
  refine ⟨c', fun α k a hk => ?_⟩
  -- The pattern behind the operator answers there, and nowhere in front of another character.
  have hthere := hequals α k a hk
  have helse : ∀ before x r pos, x ≠ '=' →
      run? (seq ["=", .notAhead "="]) ⟨before, x :: r, pos⟩ caps k = none := by
    intro before x r pos hx
    cases hrun : run? (seq ["=", .notAhead "="]) ⟨before, x :: r, pos⟩ caps k with
    | none => rfl
    | some b =>
      obtain ⟨_, _, ⟨_, _, htakes, _⟩, -⟩ := exists_takes_of_run? hrun
      have hread := (takes_text_iff.mp htakes).1.after_eq
      exact absurd (List.cons.inj hread).1 hx
  show run? (opt (oneOf [.one (CharSet.of "-+*/%"), "//", "**"])) c caps
    (fun d caps => run? (seq ["=", .notAhead "="]) d caps k) = some a
  generalize seq ["=", .notAhead "="] = p at hthere helse ⊢
  obtain ⟨before, after, pos⟩ := c
  obtain ⟨before₁, after₁, pos₁⟩ := c₁
  simp only at hafter hbefore hpos hafter₁
  subst hafter hbefore hpos hafter₁
  -- `//` and `**` begin with an operator of one character, behind which no equals sign follows, so
  -- that way fails and the next one is tried.
  simp only [knownOperators, List.mem_cons, List.not_mem_nil, or_false] at hoperator
  rcases hoperator with rfl | rfl | rfl | rfl | rfl | rfl | rfl | rfl
  all_goals
    simp [opt, oneOf, text, run?, Cursor.next?, CharSet.of, helse] at hthere ⊢
    simp [hthere]

/-- A name, an operator that the pattern knows or none, and an equals sign. -/
theorem leads_assignmentLine (caps : Captures) {operator : String} {value : Text} (hn : IsName n)
    (hs : s.all isBlank = true) (hoperator : operator ∈ "" :: knownOperators)
    (hvalue : value.head? ≠ some '=')
    (hafter : c.after = n ++ (s ++ (operator.toList ++ '=' :: value))) :
    ∃ c₁ c', c.Reads n c₁ ∧ Leads assignmentLine c caps c' ((1, ⟨c, c₁⟩) :: caps) := by
  obtain ⟨c₁, hreads₁, hafter₁⟩ := Cursor.exists_reads hafter
  obtain ⟨c₂, hreads₂, hafter₂⟩ := Cursor.exists_reads hafter₁
  -- What opens the assignment is neither white space nor part of a name, so the two runs end there.
  obtain ⟨x, r, hx, hopens⟩ := exists_of_mem_operators hoperator value
  obtain ⟨hblank, hword⟩ := isBlank_of_opensAssignment hopens
  have hend₁ : c₁.after.head?.any isWord = false := by
    rw [hafter₁, hx]
    exact head?_append_any_isWord hs hword
  have hend₂ : c₂.after.head?.any isBlank = false := by
    rw [hafter₂, hx]
    exact hblank
  have hname : Leads word c caps c₁ caps :=
    leads_run hn.isWord (List.length_pos_of_ne_nil hn.ne_nil) hreads₁ hend₁
  have hspace : Leads space c₁ ((1, ⟨c, c₁⟩) :: caps) c₂ ((1, ⟨c, c₁⟩) :: caps) :=
    leads_run hs (Nat.zero_le _) hreads₂ hend₂
  obtain ⟨c', hrest⟩ := leads_operator ((1, ⟨c, c₁⟩) :: caps) hoperator hvalue hafter₂
  exact ⟨c₁, c', hreads₁, hname.group.both (hspace.both hrest)⟩

/-- The one group of a match holds the name. -/
theorem boundName?_of_leads {line : Text} {k : Nat} (hk : k ∈ [1, 2, 3, 4, 5])
    {c₁ c₂ : Cursor} (hn : c₁.Reads n c₂)
    (h : Leads bindingLine (Cursor.start line) [] c' [(k, ⟨c₁, c₂⟩)]) :
    boundName? line = some n := by
  have hgroup : [1, 2, 3, 4, 5].findSome?
      (fun i => (([(k, (⟨c₁, c₂⟩ : Capture))] : Captures).lookup i).map Capture.text) =
        some (⟨c₁, c₂⟩ : Capture).text := by
    simp only [List.mem_cons, List.not_mem_nil, or_false] at hk
    rcases hk with rfl | rfl | rfl | rfl | rfl <;> rfl
  have hmatch : bindingLine.matchStart? line =
      some ⟨Cursor.start line, c', [(k, ⟨c₁, c₂⟩)]⟩ := h.matchAt?
  rw [boundName?, hmatch]
  rw [Capture.text_of_reads hn] at hgroup
  exact hgroup

/-- An assignment to a name, perhaps with an operator that the pattern knows. -/
theorem boundName?_assignment (operator : String) (hn : IsName n) (hs : s.all isBlank = true)
    (hoperator : operator ∈ "" :: knownOperators) {value : Text} (hvalue : value.head? ≠ some '=') :
    boundName? (n ++ (s ++ (operator.toList ++ '=' :: value))) = some n := by
  obtain ⟨c₁, c', hreads, hleads⟩ := leads_assignmentLine [] hn hs hoperator hvalue
    (c := Cursor.start (n ++ (s ++ (operator.toList ++ '=' :: value)))) rfl
  exact boundName?_of_leads (by decide) hreads (hleads.oneOf [] (by simp))

/-- A name in front of something else than the pattern expects behind a target. -/
theorem boundName?_eq_none (hn : IsName n) (hs : s.all isBlank = true) (hblank : isBlank x = false)
    (hword : isWord x = false) (hset : CharSet.of "-+*/%=" x = false) (r : Text) :
    boundName? (n ++ (s ++ x :: r)) = none := by
  have hend := head?_append_any_isWord (r := r) hs hword
  have hnone : bindingLine.matchStart? (n ++ (s ++ x :: r)) = none := by
    refine matchAt?_eq_none_iff.mpr fun c' caps' htakes => ?_
    obtain ⟨p, hp, htakes⟩ := takes_oneOf (bindingLine_eq ▸ htakes)
    rcases List.mem_cons.mp hp with rfl | hp
    · exact not_takes_assignmentLine rfl hn.isWord hs hblank hend hset htakes
    · exact not_takes_of_isName hn rfl hend p hp htakes
  rw [boundName?, hnone]
  rfl

/-- The white space behind a keyword, and the name behind it. -/
theorem leads_name (caps : Captures) (k : Nat) {rest : Text} (hafter : c.after = s ++ (n ++ rest))
    (hs : IsGap s) (hn : IsName n) (hrest : rest.head?.any isWord = false) :
    ∃ c₁ c₂, c₁.Reads n c₂ ∧
      Leads (.both space1 (.group k word)) c caps c₂ ((k, ⟨c₁, c₂⟩) :: caps) := by
  obtain ⟨c₁, hreads₁, hafter₁⟩ := Cursor.exists_reads hafter
  obtain ⟨c₂, hreads₂, hafter₂⟩ := Cursor.exists_reads hafter₁
  have hend₁ : c₁.after.head?.any isBlank = false := by
    obtain ⟨a, n', rfl⟩ := List.exists_cons_of_ne_nil hn.ne_nil
    have ha := List.all_eq_true.mp hn.isWord a List.mem_cons_self
    rw [hafter₁]
    exact isBlank_of_isWord ha
  have hend₂ : c₂.after.head?.any isWord = false := by rw [hafter₂, hrest]
  have hspace : Leads space1 c caps c₁ caps :=
    leads_run hs.isBlank (List.length_pos_of_ne_nil hs.ne_nil) hreads₁ hend₁
  have hname : Leads word c₁ caps c₂ caps :=
    leads_run hn.isWord (List.length_pos_of_ne_nil hn.ne_nil) hreads₂ hend₂
  exact ⟨c₁, c₂, hreads₂, hspace.both hname.group⟩

/-- White space behind a keyword ends it. -/
theorem IsGap.head?_append (hs : IsGap s) (t : Text) : (s ++ t).head?.any isWord = false := by
  obtain ⟨a, s', rfl⟩ := List.exists_cons_of_ne_nil hs.ne_nil
  have hs := hs.isBlank
  rw [List.all_cons, Bool.and_eq_true] at hs
  exact isWord_of_isBlank hs.1

/-- A keyword in front of something else than an operator is no target. -/
theorem not_takes_assignmentLine_of_gap {w : Text} (hafter : c.after = w ++ (s ++ x :: r))
    (hw : w.all isWord = true) (hs : IsGap s) (hx : isBlank x = false)
    (hset : CharSet.of "-+*/%=" x = false) : ¬Takes assignmentLine c caps c' caps' :=
  not_takes_assignmentLine hafter hw hs.isBlank hx (hs.head?_append _) hset

/-- A definition binds its name. -/
theorem boundName?_definition {w : String} (hw : w ∈ ["def", "class"]) {rest : Text} (hn : IsName n)
    (hs : IsGap s) (hrest : rest.head?.any isWord = false) :
    boundName? (w.toList ++ (s ++ (n ++ rest))) = some n := by
  obtain ⟨c₁, hreads, hafter⟩ := Cursor.exists_reads
    (c := Cursor.start (w.toList ++ (s ++ (n ++ rest)))) rfl
  obtain ⟨d₁, d₂, hname, hleads⟩ := leads_name [] 2 hafter hs hn hrest
  have hword : Leads (oneOfWords ["def", "class"])
      (Cursor.start (w.toList ++ (s ++ (n ++ rest)))) [] c₁ [] := by
    rcases List.mem_cons.mp hw with rfl | hw
    · exact (leads_text hreads).oneOf [] (by simp)
    · obtain rfl := List.mem_singleton.mp hw
      refine (leads_text hreads).oneOf ["def"] fun p hp d caps' htakes => ?_
      obtain rfl := List.mem_singleton.mp hp
      cases (takes_text_iff.mp htakes).1.after_eq
  -- The pattern for assignments does not match, as a name follows the keyword.
  refine boundName?_of_leads (by decide) hname ((hword.both hleads).oneOf [assignmentLine] ?_)
  intro p hp d caps'
  obtain rfl := List.mem_singleton.mp hp
  obtain ⟨a, n', rfl⟩ := List.exists_cons_of_ne_nil hn.ne_nil
  have ha := List.all_eq_true.mp hn.isWord a List.mem_cons_self
  have hall : ∀ w ∈ ["def", "class"], w.toList.all isWord = true := by decide
  exact not_takes_assignmentLine_of_gap rfl (hall w hw) hs (isBlank_of_isWord ha)
    (not_opensAssignment_of_isWord ha)

/-- An import of a module binds its first name. -/
theorem boundName?_module {rest : Text} (hn : IsName n) (hs : IsGap s)
    (hrest : rest.head?.any isWord = false) :
    boundName? ("import".toList ++ (s ++ (n ++ rest))) = some n := by
  obtain ⟨c₁, hreads, hafter⟩ := Cursor.exists_reads
    (c := Cursor.start ("import".toList ++ (s ++ (n ++ rest)))) rfl
  obtain ⟨d₁, d₂, hname, hleads⟩ := leads_name [] 3 hafter hs hn hrest
  refine boundName?_of_leads (by decide) hname
    (((leads_text hreads).both hleads).oneOf [assignmentLine, definitionLine] ?_)
  intro p hp d caps'
  rcases List.mem_cons.mp hp with rfl | hp
  · obtain ⟨a, n', rfl⟩ := List.exists_cons_of_ne_nil hn.ne_nil
    have ha := List.all_eq_true.mp hn.isWord a List.mem_cons_self
    exact not_takes_assignmentLine_of_gap rfl (by decide) hs (isBlank_of_isWord ha)
      (not_opensAssignment_of_isWord ha)
  · obtain rfl := List.mem_singleton.mp hp
    exact not_takes_words ["def", "class"] (n := "import".toList) rfl (by decide)
      (hs.head?_append _) (by decide)

/-- A module has no white space in it and is no operator. -/
theorem IsModule.spec {m : Text} (hm : IsModule m) {a : Char} (ha : a ∈ m) :
    isBlank a = false ∧ CharSet.of "-+*/%=" a = false := by
  have hpart := List.all_eq_true.mp hm.isPart a ha
  rw [Bool.or_eq_true, beq_iff_eq] at hpart
  rcases hpart with hword | rfl
  · exact ⟨isBlank_of_isWord hword, not_opensAssignment_of_isWord hword⟩
  · exact ⟨by decide, by decide⟩

/-- An import from a module binds the first name that it lists. -/
theorem boundName?_imports {m s' s'' rest : Text} (hm : IsModule m) (hn : IsName n) (hs : IsGap s)
    (hs' : IsGap s') (hs'' : IsGap s'') (hrest : rest.head?.any isWord = false) :
    boundName? ("from".toList ++ (s ++ (m ++ (s' ++ ("import".toList ++ (s'' ++ (n ++ rest))))))) =
      some n := by
  obtain ⟨c₁, hreads₁, hafter₁⟩ := Cursor.exists_reads (c := Cursor.start
    ("from".toList ++ (s ++ (m ++ (s' ++ ("import".toList ++ (s'' ++ (n ++ rest)))))))) rfl
  obtain ⟨c₂, hreads₂, hafter₂⟩ := Cursor.exists_reads hafter₁
  obtain ⟨c₃, hreads₃, hafter₃⟩ := Cursor.exists_reads hafter₂
  obtain ⟨c₄, hreads₄, hafter₄⟩ := Cursor.exists_reads hafter₃
  obtain ⟨c₅, hreads₅, hafter₅⟩ := Cursor.exists_reads hafter₄
  obtain ⟨d₁, d₂, hname, hleads⟩ := leads_name [] 4 hafter₅ hs'' hn hrest
  obtain ⟨a, m', hm'⟩ := List.exists_cons_of_ne_nil hm.ne_nil
  obtain ⟨hblank, hset⟩ := hm.spec (a := a) (by rw [hm']; exact List.mem_cons_self)
  have hgap : Leads space1 c₁ [] c₂ [] := by
    refine leads_run hs.isBlank (List.length_pos_of_ne_nil hs.ne_nil) hreads₂ ?_
    rw [hafter₂, hm']
    exact hblank
  have hmodule : Leads (many1 fun c => !isBlank c) c₂ [] c₃ [] := by
    refine leads_run ?_ (List.length_pos_of_ne_nil hm.ne_nil) hreads₃ ?_
    · rw [List.all_eq_true]
      intro b hb
      rw [(hm.spec hb).1]
      rfl
    · obtain ⟨b, s₁, rfl⟩ := List.exists_cons_of_ne_nil hs'.ne_nil
      have hb := List.all_eq_true.mp hs'.isBlank b List.mem_cons_self
      simp [hafter₃, hb]
  have hgap' : Leads space1 c₃ [] c₄ [] := by
    refine leads_run hs'.isBlank (List.length_pos_of_ne_nil hs'.ne_nil) hreads₄ ?_
    rw [hafter₄]
    rfl
  have hall : Leads importsLine (Cursor.start _) [] d₂ [(4, ⟨d₁, d₂⟩)] :=
    (leads_text hreads₁).both (hgap.both (hmodule.both (hgap'.both
      ((leads_text hreads₅).both hleads))))
  -- The other kinds of lines do not begin with these words, so this one is taken.
  refine boundName?_of_leads (by decide) hname
    (hall.oneOf [assignmentLine, definitionLine, moduleLine] ?_)
  intro p hp d caps'
  simp only [List.mem_cons, List.not_mem_nil, or_false] at hp
  rcases hp with rfl | rfl | rfl
  · rw [hm']
    exact not_takes_assignmentLine_of_gap rfl (by decide) hs hblank hset
  · exact not_takes_words ["def", "class"] (n := "from".toList) rfl (by decide)
      (hs.head?_append _) (by decide)
  · exact not_takes_words ["import"] (n := "from".toList) rfl (by decide)
      (hs.head?_append _) (by decide)

/-- The operators that the pattern does not know begin with another character. -/
theorem exists_of_unknown {operator : String} (h : operator ∈ augmentingOperators)
    (hunknown : operator ∉ knownOperators) (value : Text) :
    ∃ x r, operator.toList ++ '=' :: value = x :: r ∧ isBlank x = false ∧ isWord x = false ∧
      CharSet.of "-+*/%=" x = false := by
  simp only [augmentingOperators, List.mem_cons, List.not_mem_nil, or_false] at h
  rcases h with rfl | rfl | rfl | rfl | rfl | rfl | rfl | rfl | rfl | rfl | rfl | rfl | rfl
  all_goals first
    | exact absurd (by decide) hunknown
    | exact ⟨_, _, rfl, by decide, by decide, by decide⟩

/-- The first of the names that are listed, and what stands behind it. -/
theorem Listed.exists_head {ns : List Text} {t : Text} (h : Listed ns t) :
    ∃ n r, ns.head? = some n ∧ IsName n ∧ t = n ++ r ∧
      ∀ rest, rest.head?.any isWord = false → (r ++ rest).head?.any isWord = false := by
  cases h with
  | one hn => exact ⟨_, [], rfl, hn, (List.append_nil _).symm, fun rest hrest => hrest⟩
  | @more n s s' t ns hn hs hs' h =>
    refine ⟨n, _, rfl, hn, rfl, fun rest _ => ?_⟩
    rw [List.append_assoc, List.cons_append]
    exact head?_append_any_isWord hs (by decide)

/-- What is read from a line of one of the forms. -/
theorem boundName?_of_spelled {b : Binding} {line : Text} (h : b.Spelled line) :
    boundName? line = b.read? := by
  cases h with
  | assignment ht hs hvalue =>
    cases ht with
    | one hn => exact boundName?_assignment "" hn hs List.mem_cons_self hvalue
    -- Behind the first of several names comes a comma, which no pattern knows.
    | @more n s₁ s₂ t ns hn hs₁ hs₂ h =>
      have hseveral : (Binding.assignment (n :: ns)).read? = none := by cases h <;> rfl
      rw [hseveral, List.append_assoc, List.append_assoc, List.cons_append]
      exact boundName?_eq_none hn hs₁ (by decide) (by decide) (by decide) _
  | augmented hn hs hoperator hvalue =>
    rw [Binding.read?]
    split
    · -- The pattern knows some operators. In front of others it finds nothing.
      next hknown => exact boundName?_assignment _ hn hs (List.mem_cons_of_mem _ hknown) hvalue
    · next hunknown =>
      obtain ⟨x, r, hx, hblank, hword, hset⟩ := exists_of_unknown hoperator hunknown _
      rw [hx]
      exact boundName?_eq_none hn hs hblank hword hset r
  | imports hm ht hs hs' hs'' hrest =>
    obtain ⟨n, r, hhead, hn, rfl, hend⟩ := ht.exists_head
    rw [Binding.read?, hhead, List.append_assoc n]
    exact boundName?_imports hm hn hs hs' hs'' (hend _ hrest)
  | module hn hs hrest => exact boundName?_module hn hs hrest
  | definition hw hn hs hrest => exact boundName?_definition hw hn hs hrest

end

/-- Each alternative of the pattern remembers one word. -/
theorem exists_remembers :
    ∀ p ∈ [assignmentLine, definitionLine, moduleLine, importsLine, loopLine],
      ∃ k, Remembers k word p := by
  intro p hp
  simp only [List.mem_cons, List.not_mem_nil, or_false] at hp
  rcases hp with rfl | rfl | rfl | rfl | rfl
  · exact ⟨1, .left .group (by decide)⟩
  · exact ⟨2, .right (by decide) (.right (by decide) .group)⟩
  · exact ⟨3, .right (by decide) (.right (by decide) .group)⟩
  · exact ⟨4, .right (by decide) (.right (by decide) (.right (by decide) (.right (by decide)
      (.right (by decide) (.right (by decide) .group)))))⟩
  · exact ⟨5, .right (by decide) (.right (by decide) (.left .group (by decide)))⟩

/-- What is read from a line is a word. -/
theorem isWord_boundName? {line n : Text} (h : boundName? line = some n) : n.all isWord = true := by
  rw [boundName?] at h
  obtain ⟨m, hm, hgroup⟩ := Option.bind_eq_some_iff.mp h
  obtain ⟨-, htakes⟩ := takes_of_matchAt? hm
  obtain ⟨p, hp, htakes⟩ := takes_oneOf (bindingLine_eq ▸ htakes)
  obtain ⟨k, hk⟩ := exists_remembers p hp
  obtain ⟨u, -, hspells⟩ := htakes.spells
  obtain ⟨w, -, hw, hgroups⟩ := hk.exists_spells (by decide) hspells
  obtain ⟨i, -, hi⟩ := List.exists_of_findSome?_eq_some hgroup
  rw [Match.group?, ← lookup_textsOf, hgroups, textsOf, List.map_nil, List.lookup_cons] at hi
  split at hi
  · obtain rfl := Option.some.inj hi
    exact hw.1
  · cases hi

end Notebook

end CodeTidy
