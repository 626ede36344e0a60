import CodeTidy.Proofs.Notebook.Order

/-!
# `CodeTidy.Proofs.Notebook.Blocks`: calls in the place of blocks

A block is replaced by a call wherever it occurs, from left to right, and an
occurrence covers as many lines as the block has. `blocks_induction` walks over
lines that way, and what a replacement keeps is proved along it. The theorems:

* `flatMap_replaceFrom`: reading a call as its block takes the replacement back.
* `count_call_replaceFrom`, `count_replaceFrom`: how many calls there are, and that no
  other line is lost unless it belongs to the block.
* `occurrencesFrom_replaceFrom`: a block that does not overlap the replaced one occurs as
  often as before.
* `callHelpers_eq_map`, `sourcesOf_callHelpers`: cells in which blocks are replaced, and their
  sources.
* `exists_source_of_mem_findDuplicates`: a block that moves into a function is part of a source.
* `extractDuplicates_eq`: the cells that come out.
-/

set_option autoImplicit false

namespace CodeTidy

open Text

namespace Notebook

section

variable {a b block ls r : List Text} {call x : Text}

/-! ### The walk -/

/-- Lines that an occurrence covers are passed over. -/
theorem replaceFrom_skip (skip : Nat) :
    replaceFrom block call skip ls = replaceFrom block call 0 (ls.drop skip) := by
  induction ls generalizing skip with
  | nil => cases skip <;> simp [replaceFrom]
  | cons l ls ih =>
    cases skip with
    | zero => rfl
    | succ skip => rw [replaceFrom, ih, List.drop_succ_cons]

/-- Lines that are to be skipped are left out. -/
theorem occurrencesFrom_skip (skip : Nat) :
    occurrencesFrom block skip ls = occurrencesFrom block 0 (ls.drop skip) := by
  induction ls generalizing skip with
  | nil => cases skip <;> simp [occurrencesFrom]
  | cons l ls ih =>
    cases skip with
    | zero => rfl
    | succ skip => rw [occurrencesFrom, ih, List.drop_succ_cons]

/-- Where the block occurs, the call takes its place. -/
theorem replaceFrom_append (hne : block ≠ []) :
    replaceFrom block call 0 (block ++ r) = call :: replaceFrom block call 0 r := by
  obtain ⟨l, ls, rfl⟩ := List.exists_cons_of_ne_nil hne
  have hstart : (l :: ls).isPrefixOf (l :: (ls ++ r)) = true :=
    List.isPrefixOf_iff_prefix.mpr (List.prefix_append (l :: ls) r)
  rw [List.cons_append, replaceFrom, if_pos hstart, replaceFrom_skip]
  simp

/-- Where it does not occur, the line stays. -/
theorem replaceFrom_cons {l : Text} (h : ¬block <+: l :: ls) :
    replaceFrom block call 0 (l :: ls) = l :: replaceFrom block call 0 ls := by
  rw [replaceFrom, if_neg (mt List.isPrefixOf_iff_prefix.mp h)]

/-- A block at the start is one occurrence, and the others lie behind it. -/
theorem occurrencesFrom_append (hne : block ≠ []) :
    occurrencesFrom block 0 (block ++ r) = occurrencesFrom block 0 r + 1 := by
  obtain ⟨l, ls, rfl⟩ := List.exists_cons_of_ne_nil hne
  have hstart : (l :: ls).isPrefixOf (l :: (ls ++ r)) = true :=
    List.isPrefixOf_iff_prefix.mpr (List.prefix_append (l :: ls) r)
  rw [List.cons_append, occurrencesFrom, if_pos hstart, occurrencesFrom_skip]
  simp

/-- Where no block begins, the occurrences lie behind the line. -/
theorem occurrencesFrom_cons {l : Text} (h : ¬block <+: l :: ls) :
    occurrencesFrom block 0 (l :: ls) = occurrencesFrom block 0 ls := by
  rw [occurrencesFrom, if_neg (mt List.isPrefixOf_iff_prefix.mp h)]

/-- Induction on the places where a block is replaced. An occurrence takes all its lines at once,
so the induction is on the length. -/
theorem blocks_induction (hne : block ≠ []) {P : List Text → Prop} (stop : P [])
    (hit : ∀ r, P r → P (block ++ r))
    (pass : ∀ l r, ¬block <+: l :: r → P r → P (l :: r)) (ls : List Text) : P ls := by
  generalize hn : ls.length = n
  induction n using Nat.strongRecOn generalizing ls with
  | ind n ih =>
    cases ls with
    | nil => exact stop
    | cons l ls =>
      by_cases hstart : block <+: l :: ls
      · obtain ⟨r, hr⟩ := hstart
        have hpos : 0 < block.length := List.length_pos_iff.mpr hne
        have hlength := congrArg List.length hr
        rw [List.length_append] at hlength
        rw [← hr]
        exact hit r (ih r.length (by omega) r rfl)
      · exact pass l ls hstart (ih ls.length (by simp at hn; omega) ls rfl)

/-! ### What a replacement keeps -/

/-- If a call is read as the lines of its block, the replacement is not noticed. -/
theorem flatMap_replaceFrom (hne : block ≠ []) {f : Text → List Text}
    (hf : f call = block.flatMap f) (ls : List Text) :
    (replaceFrom block call 0 ls).flatMap f = ls.flatMap f := by
  induction ls using blocks_induction hne with
  | stop => simp [replaceFrom]
  | hit r ih => rw [replaceFrom_append hne, List.flatMap_cons, hf, ih, List.flatMap_append]
  | pass l r hnot ih => rw [replaceFrom_cons hnot, List.flatMap_cons, ih, List.flatMap_cons]

/-- Some lines are left if there were some. -/
theorem replaceFrom_ne_nil (hne : block ≠ []) (h : ls ≠ []) : replaceFrom block call 0 ls ≠ [] := by
  induction ls using blocks_induction hne with
  | stop => exact absurd rfl h
  | hit r ih => simp [replaceFrom_append hne]
  | pass l r hnot ih => simp [replaceFrom_cons hnot]

/-- Each line is an old one or the call. -/
theorem mem_of_mem_replaceFrom (hne : block ≠ []) (h : x ∈ replaceFrom block call 0 ls) :
    x = call ∨ x ∈ ls := by
  induction ls using blocks_induction hne with
  | stop => simp [replaceFrom] at h
  | hit r ih =>
    rw [replaceFrom_append hne, List.mem_cons] at h
    rcases h with h | h
    · exact .inl h
    · exact (ih h).imp_right (List.mem_append_right block)
  | pass l r hnot ih =>
    rw [replaceFrom_cons hnot, List.mem_cons] at h
    rcases h with rfl | h
    · exact .inr List.mem_cons_self
    · exact (ih h).imp_right (List.mem_cons_of_mem l)

/-- If no call is written, nothing is replaced. -/
theorem replaceFrom_eq_self_of_not_mem (hne : block ≠ []) (h : call ∉ replaceFrom block call 0 ls) :
    replaceFrom block call 0 ls = ls := by
  induction ls using blocks_induction hne with
  | stop => simp [replaceFrom]
  | hit r ih => simp [replaceFrom_append hne] at h
  | pass l r hnot ih =>
    rw [replaceFrom_cons hnot, List.mem_cons, not_or] at h
    rw [replaceFrom_cons hnot, ih h.2]

/-- There is a call for each occurrence of the block. -/
theorem count_call_replaceFrom (hne : block ≠ []) (h : call ∉ ls) :
    (replaceFrom block call 0 ls).count call = occurrencesFrom block 0 ls := by
  induction ls using blocks_induction hne with
  | stop => simp [replaceFrom, occurrencesFrom]
  | hit r ih =>
    rw [List.mem_append, not_or] at h
    rw [replaceFrom_append hne, occurrencesFrom_append hne, List.count_cons_self, ih h.2]
  | pass l r hnot ih =>
    rw [List.mem_cons, not_or] at h
    rw [replaceFrom_cons hnot, occurrencesFrom_cons hnot, List.count_cons_of_ne (Ne.symm h.1),
      ih h.2]

/-- A line that does not belong to the block is neither lost nor added. -/
theorem count_replaceFrom (hne : block ≠ []) (hcall : x ≠ call) (hx : x ∉ block)
    (ls : List Text) : (replaceFrom block call 0 ls).count x = ls.count x := by
  induction ls using blocks_induction hne with
  | stop => simp [replaceFrom]
  | hit r ih =>
    rw [replaceFrom_append hne, List.count_cons_of_ne (Ne.symm hcall), ih, List.count_append,
      List.count_eq_zero_of_not_mem hx, Nat.zero_add]
  | pass l r hnot ih => rw [replaceFrom_cons hnot, List.count_cons, List.count_cons, ih]

/-! ### Blocks that do not overlap -/

/-- One of two blocks ends with lines that the other one begins with. -/
def Dovetail (a b : List Text) : Prop :=
  ∃ s, s ≠ [] ∧ (s <:+ a ∧ s <+: b ∨ s <:+ b ∧ s <+: a)

/-- Two blocks are apart: neither is part of the other one, and they do not dovetail. So no
occurrences of them share a line. -/
structure Apart (a b : List Text) : Prop where
  not_infix : ¬a <:+: b ∧ ¬b <:+: a
  not_dovetail : ¬Dovetail a b

/-- Two blocks are apart whichever is named first. -/
theorem Apart.symm (h : Apart a b) : Apart b a :=
  ⟨h.not_infix.symm, fun ⟨s, hs, hends⟩ => h.not_dovetail ⟨s, hs, hends.symm⟩⟩

/-- Blocks without a common line are apart. -/
theorem apart_of_disjoint (ha : a ≠ []) (hb : b ≠ []) (h : ∀ l ∈ a, l ∉ b) : Apart a b := by
  have hcommon : ∀ s, s ≠ [] → s ⊆ a → ¬s ⊆ b := by
    intro s hs hsa hsb
    obtain ⟨l, s, rfl⟩ := List.exists_cons_of_ne_nil hs
    exact h l (hsa List.mem_cons_self) (hsb List.mem_cons_self)
  refine ⟨⟨fun hab => ?_, fun hba => ?_⟩, ?_⟩
  · exact hcommon a ha (List.Subset.refl a) hab.subset
  · exact hcommon b hb hba.subset (List.Subset.refl b)
  · rintro ⟨s, hs, ⟨hsa, hsb⟩ | ⟨hsb, hsa⟩⟩
    · exact hcommon s hs hsa.subset hsb.subset
    · exact hcommon s hs hsa.subset hsb.subset

/-- No occurrence of `b` begins within one of `a`. -/
theorem Apart.not_prefix (h : Apart a b) {s : List Text} (hs : s ≠ []) (hsuffix : s <:+ a) :
    ¬b <+: s ++ r := by
  intro hb
  rcases List.prefix_or_prefix_of_prefix hb (List.prefix_append s r) with hbs | hsb
  · exact h.not_infix.2 (hbs.isInfix.trans hsuffix.isInfix)
  · exact h.not_dovetail ⟨s, hs, .inl ⟨hsuffix, hsb⟩⟩

/-- Lines of one block are passed over by the walk for the other one. -/
theorem Apart.occurrencesFrom_append (h : Apart a b) {s : List Text} (hsuffix : s <:+ a) :
    occurrencesFrom b 0 (s ++ r) = occurrencesFrom b 0 r := by
  induction s with
  | nil => rfl
  | cons l s ih =>
    have hnot : ¬b <+: l :: (s ++ r) := h.not_prefix (List.cons_ne_nil l s) hsuffix
    rw [List.cons_append, occurrencesFrom_cons hnot, ih ((List.suffix_cons l s).trans hsuffix)]

/-- Where one of two blocks that are apart stands, the other one is not replaced. -/
theorem Apart.replaceFrom_append (h : Apart a b) {s : List Text} (hsuffix : s <:+ b) :
    replaceFrom a call 0 (s ++ r) = s ++ replaceFrom a call 0 r := by
  induction s with
  | nil => rfl
  | cons l s ih =>
    have hnot : ¬a <+: l :: (s ++ r) := h.symm.not_prefix (List.cons_ne_nil l s) hsuffix
    rw [List.cons_append, replaceFrom_cons hnot, ih ((List.suffix_cons l s).trans hsuffix),
      List.cons_append]

/-- What the new lines begin with, other than a call, the old ones begin with too. -/
theorem prefix_of_prefix_replaceFrom (hne : a ≠ []) (hcall : call ∉ b)
    (h : b <+: replaceFrom a call 0 ls) : b <+: ls := by
  induction b generalizing ls with
  | nil => exact List.nil_prefix
  | cons l b ih =>
    rw [List.mem_cons, not_or] at hcall
    induction ls using blocks_induction hne with
    | stop => simp [replaceFrom] at h
    | hit r _ =>
      rw [Notebook.replaceFrom_append hne, List.cons_prefix_cons] at h
      exact absurd h.1.symm hcall.1
    | pass l' r hnot _ =>
      rw [replaceFrom_cons hnot, List.cons_prefix_cons] at h
      rw [List.cons_prefix_cons]
      exact ⟨h.1, ih hcall.2 h.2⟩

/-- A block occurs as often as before if another one is replaced that is apart from it. -/
theorem occurrencesFrom_replaceFrom (ha : a ≠ []) (hb : b ≠ []) (h : Apart a b)
    (hcall : call ∉ b) (ls : List Text) :
    occurrencesFrom b 0 (replaceFrom a call 0 ls) = occurrencesFrom b 0 ls := by
  -- An occurrence of either block is passed as a whole, so the induction is on the length.
  generalize hn : ls.length = n
  induction n using Nat.strongRecOn generalizing ls with
  | ind n ih =>
    have hbehind : ∀ {s r : List Text}, s ≠ [] → ls = s ++ r →
        occurrencesFrom b 0 (replaceFrom a call 0 r) = occurrencesFrom b 0 r := by
      intro s r hs hls
      have hpos : 0 < s.length := List.length_pos_iff.mpr hs
      have hlength : ls.length = s.length + r.length := by rw [hls, List.length_append]
      exact ih r.length (by omega) r rfl
    by_cases hstart : a <+: ls
    -- A call takes the place of `a`, and `b` begins neither at the call nor within `a`.
    · obtain ⟨r, hr⟩ := hstart
      have hnot : ¬b <+: call :: replaceFrom a call 0 r := by
        intro hbegins
        obtain ⟨l, b', rfl⟩ := List.exists_cons_of_ne_nil hb
        rw [List.cons_prefix_cons] at hbegins
        exact hcall (by simp [hbegins.1])
      rw [← hr, replaceFrom_append ha, occurrencesFrom_cons hnot, hbehind ha hr.symm,
        h.occurrencesFrom_append List.suffix_rfl]
    · by_cases hstart' : b <+: ls
      -- No `a` begins within this `b`, so it stays as it is.
      · obtain ⟨r, hr⟩ := hstart'
        rw [← hr, h.replaceFrom_append List.suffix_rfl, occurrencesFrom_append hb,
          hbehind hb hr.symm, occurrencesFrom_append hb]
      · cases ls with
        | nil => simp [replaceFrom]
        | cons l r =>
          -- Neither begins here, and the replacement behind does not make a `b` begin here.
          have hnot : ¬b <+: l :: replaceFrom a call 0 r := by
            rw [← replaceFrom_cons hstart]
            exact mt (prefix_of_prefix_replaceFrom ha hcall) hstart'
          rw [replaceFrom_cons hstart, occurrencesFrom_cons hnot, occurrencesFrom_cons hstart',
            hbehind (List.cons_ne_nil l []) rfl]

/-- A block that occurs is part of the lines. -/
theorem infix_of_occurrencesFrom_pos (hne : block ≠ []) (h : 0 < occurrencesFrom block 0 ls) :
    block <:+: ls := by
  induction ls using blocks_induction hne with
  | stop => simp [occurrencesFrom] at h
  | hit r _ => exact (List.prefix_append block r).isInfix
  | pass l r hnot ih =>
    rw [occurrencesFrom_cons hnot] at h
    exact (ih h).trans (List.suffix_cons l r).isInfix

/-- The occurrences in the sources, source by source. -/
theorem occurrences_cons (ls : List Text) (sources : List (List Text)) (block : List Text) :
    occurrences (ls :: sources) block = occurrencesFrom block 0 ls + occurrences sources block :=
  rfl

/-- A block that occurs does so in one of the sources. -/
theorem exists_of_occurrences_pos {sources : List (List Text)}
    (h : 0 < occurrences sources block) : ∃ ls ∈ sources, 0 < occurrencesFrom block 0 ls := by
  induction sources with
  | nil => simp [occurrences] at h
  | cons ls sources ih =>
    by_cases hls : 0 < occurrencesFrom block 0 ls
    · exact ⟨ls, List.mem_cons_self, hls⟩
    · rw [occurrences_cons] at h
      have hrest : 0 < occurrences sources block := by omega
      obtain ⟨ls', hmem, hpos⟩ := ih hrest
      exact ⟨ls', List.mem_cons_of_mem ls hmem, hpos⟩

end

/-! ### Calls in cells -/

/-- The lines of the code cells, cell by cell. -/
def sourcesOf (cells : List Cell) : List (List Text) := (NameMaker.codeOf cells).map lines

/-- No code cell mentions the name of a function for a repeated block. -/
def MentionsNoHelper (cells : List Cell) : Prop :=
  ∀ c ∈ cells, c.isCode = true → holds c.source "helper_function_" = false

/-- Different helpers are called by different lines. -/
theorem helperCall_injective {n n' : Nat} (h : helperCall n = helperCall n') : n = n' :=
  helperName_injective (List.append_cancel_right h)

/-- A call is one line. -/
theorem not_mem_helperCall (n : Nat) : '\n' ∉ helperCall n := by
  have hword : '\n' ∉ "helper_function_".toList := by decide
  have hparens : '\n' ∉ "()".toList := by decide
  have hdigits : '\n' ∉ ofNat n := by
    intro hmem
    have hdigit : Char.isDigit '\n' = true := List.all_eq_true.mp (isDigit_ofNat n) '\n' hmem
    cases hdigit
  unfold helperCall helperName
  intro hmem
  rcases List.mem_append.mp hmem with hmem | hmem
  · rcases List.mem_append.mp hmem with hmem | hmem
    · exact hword hmem
    · exact hdigits hmem
  · exact hparens hmem

/-- A text that does not mention a function does not call one. -/
theorem helperCall_not_mem_lines {t : Text} (h : holds t "helper_function_" = false) (n : Nat) :
    helperCall n ∉ lines t := by
  intro hmem
  obtain ⟨v, r, ht, -⟩ := exists_of_mem_lines hmem
  have hname : "helper_function_".toList <+: helperName n := List.prefix_append _ _
  have hcall : helperName n <+: helperCall n := List.prefix_append _ _
  have hinfix : "helper_function_".toList <:+: t := by
    rw [ht]
    exact (hname.trans hcall).isInfix.trans ⟨v, r, by simp⟩
  rw [holds_iff.mpr hinfix] at h
  cases h

/-- The call of a helper changes no kind of cell. -/
theorem isCode_callHelper (n : Nat) (b : Text) (cell : Cell) :
    (callHelper n b cell).isCode = cell.isCode := by
  rw [callHelper]
  split
  · exact isCode_update _ cell
  · rfl

/-- The lines of a cell in which a block is replaced. -/
theorem lines_callHelper (n : Nat) (b : Text) {cell : Cell} (h : cell.isCode = true) :
    lines (callHelper n b cell).source =
      replaceFrom (lines b) (helperCall n) 0 (lines cell.source) := by
  rw [callHelper, if_pos h, Cell.source_update _ h]
  refine lines_unlines (replaceFrom_ne_nil (lines_ne_nil b) (lines_ne_nil _)) ?_
  intro l hl
  rcases mem_of_mem_replaceFrom (lines_ne_nil b) hl with rfl | hold
  · exact not_mem_helperCall n
  · exact not_mem_of_mem_lines hold

/-! ### One block after the other -/

/-- Lines in which blocks are replaced, one block after the other. The calls are numbered from `n`
on. -/
def replaceBlocks : (n : Nat) → (blocks : List Text) → List Text → List Text
  | _, [], ls => ls
  | n, b :: bs, ls => replaceBlocks (n + 1) bs (replaceFrom (lines b) (helperCall n) 0 ls)

/-- A cell in which blocks are replaced. -/
def callBlocks : (n : Nat) → (blocks : List Text) → Cell → Cell
  | _, [], cell => cell
  | n, b :: bs, cell => callBlocks (n + 1) bs (callHelper n b cell)

/-- The helpers are called in each cell by itself. -/
theorem callHelpers_eq_map (cells : List Cell) (n : Nat) (bs : List Text) :
    callHelpers cells n bs = cells.map (callBlocks n bs) := by
  induction bs generalizing cells n with
  | nil => rw [callHelpers, show callBlocks n [] = id from rfl, List.map_id]
  | cons b bs ih =>
    rw [callHelpers, ih, List.map_map]
    rfl

/-- The calls of helpers change no kind of cell. -/
theorem isCode_callBlocks (n : Nat) (bs : List Text) (cell : Cell) :
    (callBlocks n bs cell).isCode = cell.isCode := by
  induction bs generalizing n cell with
  | nil => rfl
  | cons b bs ih => rw [callBlocks, ih, isCode_callHelper]

/-- A cell without code stays as it is. -/
theorem callBlocks_of_other (n : Nat) (bs : List Text) {cell : Cell} (h : cell.isCode = false) :
    callBlocks n bs cell = cell := by
  induction bs generalizing n with
  | nil => rfl
  | cons b bs ih => rw [callBlocks, callHelper, h, if_neg Bool.false_ne_true, ih]

/-- The lines of a cell in which blocks are replaced. -/
theorem lines_callBlocks (n : Nat) (bs : List Text) {cell : Cell} (h : cell.isCode = true) :
    lines (callBlocks n bs cell).source = replaceBlocks n bs (lines cell.source) := by
  induction bs generalizing n cell with
  | nil => rfl
  | cons b bs ih =>
    have hcode : (callHelper n b cell).isCode = true := by rw [isCode_callHelper, h]
    rw [callBlocks, ih _ hcode, lines_callHelper n b h, replaceBlocks]

/-- The sources of cells in which blocks are replaced. -/
theorem sourcesOf_callHelpers (cells : List Cell) (n : Nat) (bs : List Text) :
    sourcesOf (callHelpers cells n bs) = (sourcesOf cells).map (replaceBlocks n bs) := by
  rw [callHelpers_eq_map]
  induction cells with
  | nil => rfl
  | cons c cells ih =>
    simp only [sourcesOf, NameMaker.codeOf, List.map_cons, List.filter_cons,
      isCode_callBlocks] at ih ⊢
    cases hcode : c.isCode with
    | true => simp [lines_callBlocks n bs hcode, ih]
    | false => simpa using ih

/-- The blocks may be replaced in two groups, the second one with the numbers behind the first. -/
theorem replaceBlocks_append (n : Nat) (bs bs' : List Text) (ls : List Text) :
    replaceBlocks n (bs ++ bs') ls =
      replaceBlocks (n + bs.length) bs' (replaceBlocks n bs ls) := by
  induction bs generalizing n ls with
  | nil => rfl
  | cons b bs ih =>
    rw [List.cons_append, replaceBlocks, ih, replaceBlocks, List.length_cons, Nat.add_assoc,
      Nat.add_comm 1]

/-- A line that belongs to no block, and is no call that may be written, is neither lost nor
added. -/
theorem count_replaceBlocks {x : Text} {n : Nat} {bs : List Text}
    (hcall : ∀ k, n ≤ k → k < n + bs.length → x ≠ helperCall k) (hx : ∀ b ∈ bs, x ∉ lines b)
    (ls : List Text) : (replaceBlocks n bs ls).count x = ls.count x := by
  induction bs generalizing n ls with
  | nil => rfl
  | cons b bs ih =>
    rw [List.length_cons] at hcall
    rw [List.forall_mem_cons] at hx
    rw [replaceBlocks, ih (fun k hk hlt => hcall k (by omega) (by omega)) hx.2,
      count_replaceFrom (lines_ne_nil b) (hcall n (Nat.le_refl n) (by omega)) hx.1]

/-! ### The blocks that are chosen -/

/-- A block that moves into a function is part of a source and occurs twice. -/
theorem exists_source_of_mem_findDuplicates {cells : List Cell} {b : Text}
    (h : b ∈ findDuplicates (NameMaker.codeOf cells)) :
    (∃ ls ∈ sourcesOf cells, lines b <:+: ls) ∧ 2 ≤ occurrences (sourcesOf cells) (lines b) := by
  obtain ⟨first, block, hlines, -, htwice⟩ := exists_of_mem_findDuplicates h
  rw [← hlines] at htwice
  obtain ⟨ls, hmem, hpos⟩ := exists_of_occurrences_pos (Nat.lt_of_lt_of_le (by decide) htwice)
  exact ⟨⟨ls, hmem, infix_of_occurrencesFrom_pos (lines_ne_nil b) hpos⟩, htwice⟩

/-- So it does not call a function, if no cell mentions one. -/
theorem MentionsNoHelper.not_mem {cells : List Cell} (h : MentionsNoHelper cells)
    {ls : List Text} (hls : ls ∈ sourcesOf cells) (n : Nat) : helperCall n ∉ ls := by
  obtain ⟨t, ht, rfl⟩ := List.mem_map.mp hls
  obtain ⟨c, hc, rfl⟩ := List.mem_map.mp ht
  obtain ⟨hmem, hcode⟩ := List.mem_filter.mp hc
  exact helperCall_not_mem_lines (h c hmem hcode) n

/-- If no helper is mentioned, then in no block that occurs twice. -/
theorem MentionsNoHelper.not_mem_block {cells : List Cell} (h : MentionsNoHelper cells)
    {b : Text} (hb : b ∈ findDuplicates (NameMaker.codeOf cells)) (n : Nat) :
    helperCall n ∉ lines b := by
  obtain ⟨⟨ls, hls, hpart⟩, -⟩ := exists_source_of_mem_findDuplicates hb
  exact fun hmem => h.not_mem hls n (hpart.subset hmem)

/-- The new cells stand between the old ones, in which the blocks are replaced. -/
theorem extractDuplicates_eq (cells : List Cell) :
    ∃ before after,
      before ++ after = callHelpers cells 1 (findDuplicates (NameMaker.codeOf cells)) ∧
      extractDuplicates cells = before ++
        (if findDuplicates (NameMaker.codeOf cells) = [] then []
          else helperCells (findDuplicates (NameMaker.codeOf cells))) ++ after := by
  rw [extractDuplicates, ← NameMaker.codeOf]
  generalize findDuplicates (NameMaker.codeOf cells) = blocks
  cases blocks with
  | nil =>
    refine ⟨cells, [], List.append_nil cells, ?_⟩
    rw [if_pos rfl, if_pos List.isEmpty_nil, List.append_nil, List.append_nil]
  | cons b bs =>
    refine ⟨_, _, List.takeWhile_append_dropWhile (p := fun c => !(callsHelper c || isPlainCode c)),
      ?_⟩
    rw [if_neg (List.cons_ne_nil b bs), List.isEmpty_cons, if_neg Bool.false_ne_true, beforeCalls]

/-! ### Cells with two repeated blocks -/

/-- A block of three lines that bind names. -/
def loadBlock : Text := "first = load(name)\nsecond = load(first)\nprint(first, second)"

/-- Another one, without a common line. -/
def sumBlock : Text := "total = sum(second)\nshow(total, first)\nsave(total)"

/-- Cells that hold both, in one order and in the other. The source of the last one is a plain
text. -/
def loadingCells : List Cell :=
  [Cell.newCode (loadBlock ++ "\nkeep(first)\n" ++ sumBlock), Cell.newMarkdown "Once more",
    .object [("cell_type", .string "code"), ("source", .string (sumBlock ++ "\n" ++ loadBlock))]]

/-- The cells do not mention a helper. -/
theorem mentionsNoHelper_loadingCells : MentionsNoHelper loadingCells := by
  unfold MentionsNoHelper
  decide +kernel

/-- The blocks that occur twice in the cells. -/
theorem findDuplicates_loadingCells :
    findDuplicates (NameMaker.codeOf loadingCells) = [loadBlock, sumBlock] := by
  have hfound : repeatedBlocks ((NameMaker.codeOf loadingCells).map lines) =
      [lines loadBlock, lines sumBlock] := by
    decide +kernel
  -- The sort does not evaluate, but these are sorted.
  have hsorted : [loadBlock, sumBlock].mergeSort (fun a b => decide (b.length ≤ a.length)) =
      [loadBlock, sumBlock] := by
    refine List.mergeSort_of_pairwise ?_
    decide +kernel
  rw [findDuplicates, hfound, List.map_cons, List.map_singleton, unlines_lines, unlines_lines,
    hsorted]
  decide +kernel

end Notebook

end CodeTidy
