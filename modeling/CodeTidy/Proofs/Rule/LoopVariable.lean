import CodeTidy.Cpp.Table
import CodeTidy.Java.Loop
import CodeTidy.JavaScript.Loop
import CodeTidy.Proofs.Pattern.Places
import CodeTidy.Proofs.Python.Loop

/-!
# `CodeTidy.Proofs.Rule.LoopVariable`: the variable of a loop over elements

Six rules turn a loop over the indices of a sequence into one over its elements,
and make up a variable for the element. If the body of the loop speaks of an outer
variable of that name, it speaks of the element afterwards. The rules for Python,
Java and C++ look for the name in the body first; those for JavaScript take `item`
whatever the body says. The theorems:

* `occursIn_nameUse`: a name that stands in a text is found there.
* `LoopRule.Settles`: what is to be known about the variable of a loop. `settles_python`,
  `settles_forEach`, `settles_arrayMethod`, `settles_java` and `settles_cpp` say what it is.
* `bound_fresh_iff`: the variable is a new one exactly if the rule looks for the name,
  or the body does not speak of an `item`.
-/

set_option autoImplicit false

namespace CodeTidy

open Pattern Text

/-! ### Names and variables -/

/-- The name that an element gets. -/
def itemName : Text := "item"

/-- What stands between the first brace of a text and the last one. -/
def braced (t : Text) : Text :=
  (dropEndWhile (· != '\x7d') ((t.dropWhile (· != '\x7b')).drop 1)).dropLast

/-- A rule that rewrites loops over indices as loops over elements. -/
structure LoopRule where
  name : String
  table : RuleTable
  pattern : Pattern
  rewrite : Match → Text
  isRule : Rule.replacing name pattern rewrite ∈ table
  /-- A character of a name. -/
  isNamePart : CharSet
  /-- The body of the loop that is rewritten. -/
  body : Match → Text
  /-- What may stand around the variable where the new loop begins. -/
  frames : Match → List (Text × Text)
  /-- Whether the rule looks for the name of the variable in the body. -/
  searches : Bool

namespace LoopRule

/-- A name stands in a text, and is not a part of a longer one. -/
def Names (r : LoopRule) (x t : Text) : Prop :=
  ∃ v w, t = v ++ (x ++ w) ∧ v.getLast?.any r.isNamePart = false ∧
    w.head?.any r.isNamePart = false

/-- The new loop has that variable. -/
def Binds (r : LoopRule) (m : Match) (x : Text) : Prop :=
  x.all r.isNamePart = true ∧ ∃ f ∈ r.frames m, f.1 ++ (x ++ f.2) <+: r.rewrite m

/-- The new loop has one variable. If the rule looks for its name, the body does not speak of it,
and otherwise it is `item`. -/
def Settles (r : LoopRule) (m : Match) : Prop :=
  ∃ x, r.Binds m x ∧ (∀ y, r.Binds m y → y = x) ∧
    if r.searches = true then ¬r.Names x (r.body m) else x = itemName

end LoopRule

/-! ### The rules -/

/-- A character of a name in JavaScript and Java. -/
def isWordOrDollar : CharSet := CharSet.or isWord (CharSet.of "$")

/-- The rule for Python. -/
def pythonLoopRule : LoopRule where
  name := "range_len_to_iteration"
  table := Python.loopRules
  pattern := Python.rangeLoop
  rewrite := Python.toElementLoop
  isRule := .tail _ (.tail _ (.tail _ (.head _)))
  isNamePart := isWord
  body m := m.group 4
  frames m := [(m.group 1 ++ "for ", " in " ++ m.group 3 ++ ":\n"),
    (m.group 1 ++ "for " ++ m.group 2 ++ ", ", " in enumerate(" ++ m.group 3 ++ "):\n")]
  searches := true

/-- What stands around the variable of a callback. -/
def callbackFrames (front index : Text) : List (Text × Text) :=
  [(front ++ "((", ") => "), (front ++ "((", ", " ++ index ++ ") => ")]

/-- The rule for JavaScript that makes a loop a `forEach`. -/
def forEachLoopRule : LoopRule where
  name := "index_loop_to_foreach"
  table := JavaScript.loopRules
  pattern := JavaScript.indexLoop
  rewrite := JavaScript.toForEach
  isRule := .tail _ (.tail _ (.head _))
  isNamePart := isWordOrDollar
  body m := m.group 3
  frames m := callbackFrames (m.group 2 ++ ".forEach") (m.group 1)
  searches := false

/-- What stands in front of the callback where an array is declared as the result of a method. -/
def arrayMethodFront (method : Text) (m : Match) : Text :=
  m.group 1 ++ " " ++ m.group 2 ++ " = " ++ m.group 4 ++ "." ++ method

/-- The rule for JavaScript that makes a loop a `map`. -/
def mapLoopRule : LoopRule where
  name := "accumulate_loop_to_map"
  table := JavaScript.loopRules
  pattern := JavaScript.mapLoop
  rewrite := JavaScript.toArrayMethod "map"
  isRule := .head _
  isNamePart := isWordOrDollar
  body m := braced m.text
  frames m := callbackFrames (arrayMethodFront "map" m) (m.group 3)
  searches := false

/-- The rule for JavaScript that makes a loop a `filter`. -/
def filterLoopRule : LoopRule where
  name := "accumulate_loop_to_filter"
  table := JavaScript.loopRules
  pattern := JavaScript.filterLoop
  rewrite := JavaScript.toArrayMethod "filter"
  isRule := .tail _ (.head _)
  isNamePart := isWordOrDollar
  body m := braced m.text
  frames m := callbackFrames (arrayMethodFront "filter" m) (m.group 3)
  searches := false

/-- The rule for Java. -/
def javaLoopRule : LoopRule where
  name := "index_loop_to_enhanced_for"
  table := Java.loopRules
  pattern := Java.indexLoop
  rewrite := Java.toEnhancedFor
  isRule := .head _
  isNamePart := isWordOrDollar
  body m := m.group 3
  frames m := [("for (var ", " : " ++ m.group 2 ++ ") \x7b")]
  searches := true

/-- The rule for C++. -/
def cppLoopRule : LoopRule where
  name := "index_loop_to_range_for"
  table := Cpp.rules
  pattern := Cpp.indexLoop
  rewrite := Cpp.toRangeFor
  isRule := .tail _ (.tail _ (.tail _ (.head _)))
  isNamePart := isWord
  body m := m.group 3
  frames m := ["auto& ", "const auto& "].map fun binding : Text =>
    ("for (" ++ binding, " : " ++ m.group 2 ++ ") \x7b")
  searches := true

/-- The rules for loops over elements. -/
def loopRules : List LoopRule :=
  [pythonLoopRule, forEachLoopRule, mapLoopRule, filterLoopRule, javaLoopRule, cppLoopRule]

/-! ### The variable of a loop -/

section Variable

variable {r : LoopRule} {m : Match} {t x y : Text}

/-- A name that stands in a text is found there. -/
theorem occursIn_nameUse (hset : ∀ c, isWord c = true → r.isNamePart c = true)
    (hx : x.all isWord = true) (hne : x ≠ []) (h : r.Names x t) :
    (seq [boundary, text x, boundary]).occursIn t = true := by
  obtain ⟨v, w, ht, hv, hw⟩ := h
  obtain ⟨c, hfront, hafter⟩ := Cursor.exists_reads (c := Cursor.start t) ht
  obtain ⟨c', hname, hrest⟩ := Cursor.exists_reads hafter
  have hpart : ∀ {o : Option Char}, o.any r.isNamePart = false → o.any isWord = false := by
    intro o ho
    cases o with
    | none => rfl
    | some a => exact Bool.eq_false_iff.mpr fun ha => by simp [hset a ha] at ho
  -- There is a word character on one side of each end of the name only.
  have hstart : c.atWordBoundary = true := by
    obtain ⟨a, u, rfl⟩ := List.exists_cons_of_ne_nil hne
    rw [List.all_cons, Bool.and_eq_true] at hx
    rw [Cursor.atWordBoundary, hfront.follows_start, hpart hv, Cursor.precedes, hafter]
    simp [hx.1]
  have hstop : c'.atWordBoundary = true := by
    have hlast := List.getLast?_eq_some_getLast hne
    rw [Cursor.atWordBoundary, (hfront.trans hname).follows_start, List.getLast?_append, hlast,
      Cursor.precedes, hrest, hpart hw]
    simp [List.all_eq_true.mp hx _ (List.getLast_mem hne)]
  have hfirst : Takes boundary c [] c [] := ⟨hstart, rfl, rfl⟩
  exact occursIn_of_takes hfront
    ⟨c, [], hfirst, c', [], takes_text_iff.mpr ⟨hname, rfl⟩, hstop, rfl, rfl⟩

/-- A word between a front and a character of another kind can be told from the text. -/
theorem eq_of_front {front u w : Text} {c d : Char} {set : CharSet} (hx : x.all set = true)
    (hy : y.all set = true) (hu : u.head? = some c) (hw : w.head? = some d) (hc : set c = false)
    (hd : set d = false) (h : front ++ (x ++ u) <+: t) (h' : front ++ (y ++ w) <+: t) :
    x = y ∧ c = d := by
  obtain ⟨u, rfl⟩ := List.head?_eq_some_iff.mp hu
  obtain ⟨w, rfl⟩ := List.head?_eq_some_iff.mp hw
  obtain ⟨v, rfl⟩ := h
  obtain ⟨v', hsame⟩ := h'
  have hsame : y ++ d :: (w ++ v') = x ++ c :: (u ++ v) := by simpa using hsame
  obtain ⟨rfl, rfl, -⟩ := eq_of_first hy hx hd hc hsame
  exact ⟨rfl, rfl⟩

/-- A loop over elements is settled if its variable can be told from its beginning. -/
theorem LoopRule.Binds.settles (h : r.Binds m x) (hunique : ∀ y, r.Binds m y → y = x)
    (hfresh : r.searches = true → ¬r.Names x (r.body m))
    (hitem : r.searches = false → x = itemName) : r.Settles m := by
  refine ⟨x, h, hunique, ?_⟩
  cases hsearches : r.searches with
  | true => exact hfresh hsearches
  | false => exact hitem hsearches

/-! ### Python -/

/-- The name for the elements is one that the body does not speak of. -/
theorem not_occursIn_elementName? {sequence body element : Text}
    (h : Python.elementName? sequence body = some element) :
    (Python.nameUse element).occursIn body = false := by
  simp only [Python.elementName?] at h
  split at h
  · next hfree =>
    cases h
    simpa using hfree
  · split at h
    · next hfree =>
      cases h
      simpa using hfree
    · cases h

/-- A loop in Python that is rewritten begins with one of the frames around the variable. -/
theorem toElementLoop_cases (hchange : Python.toElementLoop m ≠ m.text) :
    ∃ x, Python.elementName? (m.group 3) (m.group 4) = some x ∧
      ∃ f ∈ pythonLoopRule.frames m, f.1 ++ (x ++ f.2) <+: Python.toElementLoop m := by
  simp only [Python.toElementLoop] at hchange ⊢
  split at hchange
  · exact absurd rfl hchange
  · rw [if_neg ‹_›]
    cases helement : Python.elementName? (m.group 3) (m.group 4) with
    | none =>
      rw [helement] at hchange
      exact absurd rfl hchange
    | some x =>
      refine ⟨x, rfl, ?_⟩
      dsimp only
      split
      · refine ⟨_, .tail _ (.head _), ?_⟩
        simp only [List.append_assoc, List.prefix_append_right_inj, List.prefix_append]
      · refine ⟨_, .head _, ?_⟩
        simp only [List.append_assoc, List.prefix_append_right_inj, List.prefix_append]

/-- The loop in Python has one variable: where the index stands, a comma follows. -/
theorem binds_unique_python (h : Python.IsRangeLoop m) (hx : pythonLoopRule.Binds m x)
    (hy : pythonLoopRule.Binds m y) : x = y := by
  obtain ⟨(hx : x.all isWord = true), f, hf, hprefix⟩ := hx
  obtain ⟨(hy : y.all isWord = true), g, hg, hprefix'⟩ := hy
  have hblank : isWord ' ' = false := by decide
  -- The other frame has the index where this one has its variable.
  have hindex {v z w : Text} (hv : (m.group 1 ++ "for " ++ m.group 2 ++ ", " ++ v : Text) <+: w)
      (hz : z.all isWord = true) :
      ¬(m.group 1 ++ "for " ++ (z ++ (" in " ++ m.group 3 ++ ":\n")) : Text) <+: w := by
    intro hw
    rw [List.append_assoc, List.append_assoc _ (m.group 2)] at hv
    have hcomma : isWord ',' = false := by decide
    have hsame := (eq_of_front h.index hz rfl rfl hcomma hblank hv hw).2
    cases hsame
  simp only [pythonLoopRule, List.mem_cons, List.not_mem_nil, or_false] at hf hg
  rcases hf with rfl | rfl <;> rcases hg with rfl | rfl
  · exact (eq_of_front hx hy rfl rfl hblank hblank hprefix hprefix').1
  · exact absurd hprefix (hindex hprefix' hx)
  · exact absurd hprefix' (hindex hprefix hy)
  · exact (eq_of_front hx hy rfl rfl hblank hblank hprefix hprefix').1

/-- The loop over elements in Python looks for a name that its body does not speak of. -/
theorem settles_python (h : Python.IsRangeLoop m) (hchange : Python.toElementLoop m ≠ m.text) :
    pythonLoopRule.Settles m := by
  obtain ⟨x, helement, hframe⟩ := toElementLoop_cases hchange
  obtain ⟨hx, hne⟩ := Python.isWord_elementName? h.sequence helement
  have hbinds : pythonLoopRule.Binds m x := ⟨hx, hframe⟩
  refine hbinds.settles (fun y hy => binds_unique_python h hy hbinds) (fun _ hnames => ?_) nofun
  have hfound := occursIn_nameUse (r := pythonLoopRule) (fun _ hc => hc) hx hne hnames
  have hfree : (Python.nameUse x).occursIn (m.group 4) = false := not_occursIn_elementName? helement
  exact absurd hfound (Bool.eq_false_iff.mp hfree)

/-! ### JavaScript -/

/-- A callback has one parameter in front of the index. -/
theorem eq_of_callbackFrames {front index : Text} {f g : Text × Text}
    (hf : f ∈ callbackFrames front index) (hg : g ∈ callbackFrames front index)
    (hx : x.all isWordOrDollar = true) (hy : y.all isWordOrDollar = true)
    (h : f.1 ++ (x ++ f.2) <+: t) (h' : g.1 ++ (y ++ g.2) <+: t) : x = y := by
  have hframe : ∀ f ∈ callbackFrames front index,
      f.1 = front ++ "((" ∧ ∃ c, f.2.head? = some c ∧ isWordOrDollar c = false := by
    intro f hf
    rcases List.mem_pair.mp hf with rfl | rfl
    · exact ⟨rfl, ')', rfl, by decide⟩
    · exact ⟨rfl, ',', rfl, by decide⟩
  obtain ⟨hfront, c, hc, hend⟩ := hframe f hf
  obtain ⟨hfront', d, hd, hend'⟩ := hframe g hg
  rw [hfront] at h
  rw [hfront'] at h'
  exact (eq_of_front hx hy hc hd hend hend' h h').1

/-- The parameters of a callback begin with an `item`. -/
theorem exists_frame_callbackParams (front index code rest : Text) :
    ∃ f ∈ callbackFrames front index, f.1 ++ (itemName ++ f.2) <+:
        front ++ "(" ++ JavaScript.callbackParams index code ++ " => " ++ rest := by
  unfold JavaScript.callbackParams
  split
  · exact ⟨_, .tail _ (.head _), rest, by simp [itemName]⟩
  · exact ⟨_, .head _, rest, by simp [itemName]⟩

/-- A rule for JavaScript takes an `item` if that is what stands in the frame. -/
theorem settles_of_callbackFrames {front index : Text} (hpart : r.isNamePart = isWordOrDollar)
    (hframes : r.frames m = callbackFrames front index) (hsearches : r.searches = false)
    (h : ∃ f ∈ callbackFrames front index, f.1 ++ (itemName ++ f.2) <+: r.rewrite m) :
    r.Settles m := by
  have hitem : itemName.all isWordOrDollar = true := by decide
  rw [← hframes] at h
  have hbinds : r.Binds m itemName := ⟨by rw [hpart, hitem], h⟩
  refine hbinds.settles ?_ (fun h => ?_) (fun _ => rfl)
  · rintro y ⟨hy, g, hg, hprefix⟩
    obtain ⟨f, hf, hprefix'⟩ := h
    rw [hpart] at hy
    rw [hframes] at hf hg
    exact eq_of_callbackFrames hg hf hy hitem hprefix hprefix'
  · rw [hsearches] at h
    cases h

/-- `forEach` in JavaScript takes `item` as it is. -/
theorem settles_forEach (hchange : JavaScript.toForEach m ≠ m.text) :
    forEachLoopRule.Settles m := by
  refine settles_of_callbackFrames rfl rfl rfl ?_
  show ∃ f ∈ callbackFrames _ _, f.1 ++ (itemName ++ f.2) <+: JavaScript.toForEach m
  unfold JavaScript.toForEach at hchange ⊢
  split at hchange
  · exact absurd rfl hchange
  · rw [if_neg ‹_›]
    have hframe := exists_frame_callbackParams (m.group 2 ++ ".forEach") (m.group 1)
    simpa using hframe _ _

/-- So do `map` and `filter`. -/
theorem settles_arrayMethod (m : Match) : mapLoopRule.Settles m ∧ filterLoopRule.Settles m := by
  have hframe (method : Text) : ∃ f ∈ callbackFrames (arrayMethodFront method m) (m.group 3),
      f.1 ++ (itemName ++ f.2) <+: JavaScript.toArrayMethod method m := by
    have hframe (code : Text) := exists_frame_callbackParams (arrayMethodFront method m) (m.group 3)
      code (trim code ++ ");")
    simpa only [JavaScript.toArrayMethod, arrayMethodFront, List.append_assoc] using hframe _
  exact ⟨settles_of_callbackFrames rfl rfl rfl (hframe "map"),
    settles_of_callbackFrames rfl rfl rfl (hframe "filter")⟩

/-! ### Java and C++ -/

/-- A loop in Java that is rewritten does not speak of an `item`. -/
theorem toEnhancedFor_cases (hchange : Java.toEnhancedFor m ≠ m.text) :
    (Java.nameUse itemName).occursIn (m.group 3) = false ∧
      ∃ f ∈ javaLoopRule.frames m, f.1 ++ (itemName ++ f.2) <+: Java.toEnhancedFor m := by
  unfold Java.toEnhancedFor at hchange ⊢
  dsimp only at hchange ⊢
  split at hchange
  · exact absurd rfl hchange
  · next hguard =>
    rw [if_neg hguard]
    split at hchange
    · exact absurd rfl hchange
    · rw [if_neg ‹_›]
      rw [Bool.or_eq_true, not_or] at hguard
      exact ⟨Bool.eq_false_iff.mpr hguard.1, _, .head _, by simp [itemName]⟩

/-- The enhanced loop in Java takes `item` only if the body does not speak of one. -/
theorem settles_java (hchange : Java.toEnhancedFor m ≠ m.text) : javaLoopRule.Settles m := by
  have hitem : itemName.all isWordOrDollar = true := by decide
  have hblank : isWordOrDollar ' ' = false := by decide
  obtain ⟨hfree, f, hf, hframe⟩ := toEnhancedFor_cases hchange
  have hbinds : javaLoopRule.Binds m itemName := ⟨hitem, f, hf, hframe⟩
  refine hbinds.settles ?_ (fun _ hnames => ?_) nofun
  · rintro y ⟨(hy : y.all isWordOrDollar = true), g, hg, hprefix⟩
    obtain rfl := List.mem_singleton.mp hf
    obtain rfl := List.mem_singleton.mp hg
    exact (eq_of_front hy hitem rfl rfl hblank hblank hprefix hframe).1
  · have hset : ∀ c, isWord c = true → isWordOrDollar c = true := fun c hc => by
      simp [isWordOrDollar, CharSet.or, hc]
    have hfound := occursIn_nameUse (r := javaLoopRule) hset (by decide) (by decide) hnames
    exact absurd hfound (Bool.eq_false_iff.mp hfree)

/-- The name that an element gets in C++. -/
def elementName : Text := "element"

/-- A loop in C++ that is rewritten does not speak of an `element`. -/
theorem toRangeFor_cases (hchange : Cpp.toRangeFor m ≠ m.text) :
    (Cpp.nameUse elementName).occursIn (m.group 3) = false ∧
      ∃ f ∈ cppLoopRule.frames m, f.1 ++ (elementName ++ f.2) <+: Cpp.toRangeFor m := by
  -- Whatever the binding is, the name stands behind it in the head of the loop.
  have hframe (binding body : Text) :
      ("for (" ++ (binding ++ " ") : Text) ++
        (elementName ++ (" : " ++ m.group 2 ++ ") \x7b" : Text)) <+:
          ("for (" ++ binding ++ " element : " ++ m.group 2 ++ ") \x7b" ++ body ++
            "\x7d" : Text) := by
    refine ⟨body ++ "\x7d", ?_⟩
    simp only [List.append_assoc]
    rfl
  unfold Cpp.toRangeFor at hchange ⊢
  dsimp only at hchange ⊢
  split at hchange
  · exact absurd rfl hchange
  · next hguard =>
    rw [if_neg hguard]
    split at hchange
    · exact absurd rfl hchange
    · rw [if_neg ‹_›]
      refine ⟨Bool.eq_false_iff.mpr hguard, ?_⟩
      split
      · exact ⟨_, .head _, hframe "auto&" _⟩
      · exact ⟨_, .tail _ (.head _), hframe "const auto&" _⟩

/-- So does the loop over a range in C++. -/
theorem settles_cpp (hchange : Cpp.toRangeFor m ≠ m.text) : cppLoopRule.Settles m := by
  have helement : elementName.all isWord = true := by decide
  have hblank : isWord ' ' = false := by decide
  obtain ⟨hfree, f, hf, hframe⟩ := toRangeFor_cases hchange
  have hbinds : cppLoopRule.Binds m elementName := ⟨helement, f, hf, hframe⟩
  refine hbinds.settles ?_ (fun _ hnames => ?_) nofun
  · rintro y ⟨(hy : y.all isWord = true), g, hg, hprefix⟩
    -- The two frames differ behind the bracket already.
    have hother {v w u : Text} : ("for (" ++ "auto& " ++ v : Text) <+: u →
        ¬("for (" ++ "const auto& " ++ w : Text) <+: u := by
      rintro ⟨r, rfl⟩ ⟨r', hr'⟩
      simp at hr'
    rcases List.mem_pair.mp hf with rfl | rfl <;> rcases List.mem_pair.mp hg with rfl | rfl
    · exact (eq_of_front hy helement rfl rfl hblank hblank hprefix hframe).1
    · exact absurd hprefix (hother hframe)
    · exact absurd hframe (hother hprefix)
    · exact (eq_of_front hy helement rfl rfl hblank hblank hprefix hframe).1
  · have hfound := occursIn_nameUse (r := cppLoopRule) (fun _ hc => hc) (by decide)
      (by decide) hnames
    exact absurd hfound (Bool.eq_false_iff.mp hfree)

end Variable

/-! ### What a loop captures -/

/-- A loop that a rule rewrites is settled. -/
theorem settles_of_changed {r : LoopRule} (hr : r ∈ loopRules) {t : Text} {m : Match}
    (hm : m ∈ r.pattern.hits t) (hchange : r.rewrite m ≠ m.text) : r.Settles m := by
  simp only [loopRules, List.mem_cons, List.not_mem_nil, or_false] at hr
  rcases hr with rfl | rfl | rfl | rfl | rfl | rfl
  · have hsolid : IsSolid Python.rangeLoop := isSolid_spec (by decide)
    obtain ⟨v, hmatch⟩ := exists_matchesBehind_of_mem_hits hsolid hm
    exact settles_python (Python.isRangeLoop hmatch) hchange
  · exact settles_forEach hchange
  · exact (settles_arrayMethod m).1
  · exact (settles_arrayMethod m).2
  · exact settles_java hchange
  · exact settles_cpp hchange

/-- A loop that a rule rewrites has one variable, and that is a new one exactly if the rule looks
for its name or the body does not speak of an `item`. -/
theorem bound_fresh_iff : ∀ r ∈ loopRules, ∀ t, ∀ m ∈ r.pattern.hits t, r.rewrite m ≠ m.text →
    ∃ x, r.Binds m x ∧ (∀ y, r.Binds m y → y = x) ∧
      (¬r.Names x (r.body m) ↔ r.searches = true ∨ ¬r.Names itemName (r.body m)) := by
  intro r hr t m hm hchange
  obtain ⟨x, hbinds, hunique, hsettled⟩ := settles_of_changed hr hm hchange
  refine ⟨x, hbinds, hunique, ?_⟩
  split at hsettled
  · next hsearches => exact iff_of_true hsettled (.inl hsearches)
  · next hsearches =>
    subst hsettled
    exact ⟨.inr, fun h => h.resolve_left hsearches⟩

/-- A loop over rows whose body has a `row` already. -/
def namingLoop : Text := "for i in range(len(rows)):\n    row = f(rows[i])\n"

/-- The rows become items there. -/
theorem bound_fresh_namingLoop :
    ∃ m ∈ Python.rangeLoop.hits namingLoop, Python.toElementLoop m ≠ m.text ∧
      pythonLoopRule.Binds m itemName ∧ ¬pythonLoopRule.Names itemName (m.group 4) := by
  have hmatch : (Python.rangeLoop.hits namingLoop).any (fun m => Python.toElementLoop m != m.text &&
      (m.group 1 ++ "for " ++ (itemName ++ (" in " ++ m.group 3 ++ ":\n"))).isPrefixOf
        (Python.toElementLoop m)) = true := by
    decide +kernel
  obtain ⟨m, hm, h⟩ := List.any_eq_true.mp hmatch
  rw [Bool.and_eq_true, bne_iff_ne] at h
  have hitem : pythonLoopRule.Binds m itemName :=
    ⟨by decide, _, .head _, List.isPrefixOf_iff_prefix.mp h.2⟩
  obtain ⟨x, -, hunique, hfresh⟩ :=
    bound_fresh_iff pythonLoopRule (.head _) namingLoop m hm h.1
  rw [← hunique _ hitem] at hfresh
  exact ⟨m, hm, h.1, hitem, hfresh.mpr (.inl rfl)⟩

/-- A rule for JavaScript does not look for an `item`, and what another variable of that name was
becomes the element. -/
theorem item_captured :
    ∃ m ∈ JavaScript.indexLoop.hits "for (let i = 0; i < a.length; i++) \x7b f(item, a[i]); \x7d",
      JavaScript.toForEach m = "a.forEach((item) => \x7b f(item, item); \x7d);" ∧
      forEachLoopRule.Binds m itemName ∧ forEachLoopRule.Names itemName (m.group 3) := by
  have hmatch : (JavaScript.indexLoop.hits
      "for (let i = 0; i < a.length; i++) \x7b f(item, a[i]); \x7d").any (fun m =>
        m.group 2 == "a" && m.group 3 == " f(item, a[i]); " &&
          JavaScript.toForEach m == "a.forEach((item) => \x7b f(item, item); \x7d);") = true := by
    decide +kernel
  obtain ⟨m, hm, h⟩ := List.any_eq_true.mp hmatch
  simp only [Bool.and_eq_true, beq_iff_eq] at h
  obtain ⟨⟨harray, hbody⟩, hrewrite⟩ := h
  refine ⟨m, hm, hrewrite, ⟨by decide, _, .head _, ?_⟩, ?_⟩
  · show _ <+: JavaScript.toForEach m
    rw [hrewrite, harray]
    exact ⟨"\x7b f(item, item); \x7d);", rfl⟩
  · rw [hbody]
    exact ⟨" f(", ", a[i]); ", rfl, by decide, by decide⟩

end CodeTidy
