import CodeTidy.Generic.Table
import CodeTidy.Proofs.Json.Relaid
import CodeTidy.Proofs.Pattern.Rewrite
import CodeTidy.Proofs.Pattern.Shapes

/-!
# `CodeTidy.Proofs.Generic.LineEnds`: white space at the ends of lines

Two passes of the formatter replace white space that goes up to the end of a
line. No string of a JSON text reaches so far, so they only relay it:
`relaid_replace`, which holds for every pattern that is `IsLineSpace`.
-/

set_option autoImplicit false

namespace CodeTidy.Generic

open Json Pattern Text

/-! ### White space at the ends of lines -/

/-- Whether all that a pattern matches is white space up to the end of a line. -/
def IsLineSpace (p : Pattern) : Prop :=
  ∀ c m, p.matchAt? c = some m → ∃ u, u ≠ [] ∧ c.Reads u m.stop ∧ u.all isSpace = true ∧
    ('\n' ∈ u ∨ m.stop.atLineEnd = true)

section

variable {p : Pattern} {f : Match → Text}

/-- A word on one line that does not end with white space is passed as it is. -/
theorem exists_cuts_behind (hp : IsLineSpace p) {c c' : Cursor} {segments : List Segment}
    {w : Text} (h : Cuts p c segments) (hw : c.Reads w c') (hline : '\n' ∉ w)
    (hlast : ∀ a ∈ w.getLast?, isSpace a = false) :
    ∃ segments', Cuts p c' segments' ∧
      segments.flatMap (Segment.rewrite f) = w ++ segments'.flatMap (Segment.rewrite f) := by
  induction w generalizing c segments with
  | nil =>
    obtain rfl := hw.unique (.refl c)
    exact ⟨segments, h, rfl⟩
  | cons a w ih =>
    cases h with
    | stop hend =>
      rw [hw.after_eq] at hend
      cases hend
    | @pass _ c₁ b g rest hread hnone hrest =>
      obtain ⟨c₂, hread', hw'⟩ := hw.split (u := [a])
      obtain rfl : b = a := (List.cons.inj (hread.after_eq.symm.trans hread'.after_eq)).1
      obtain rfl := hread.unique hread'
      rw [List.mem_cons, not_or] at hline
      have hlast' : ∀ a ∈ w.getLast?, isSpace a = false := by
        intro a ha
        refine hlast a ?_
        rw [List.getLast?_cons, Option.mem_some]
        rw [Option.mem_def] at ha
        rw [ha]
        rfl
      obtain ⟨segments', hcuts, heq⟩ := ih hrest hw' hline.2 hlast'
      exact ⟨segments', hcuts, congrArg (b :: ·) heq⟩
    | @hit _ m rest hmatch hrest =>
      -- White space up to the end of a line goes beyond the word, whose last character is none.
      obtain ⟨u, hne, hu, hspace, hend⟩ := hp c m hmatch
      have hword : ¬(a :: w) <+: u := by
        intro hprefix
        have hmem := List.getLast_mem (List.cons_ne_nil a w)
        have hlast := hlast _ (List.getLast?_eq_getLast_of_ne_nil (List.cons_ne_nil a w))
        rw [List.all_eq_true.mp hspace _ (List.IsPrefix.subset hprefix hmem)] at hlast
        cases hlast
      rcases List.append_eq_append_iff.mp (hw.after_eq.symm.trans hu.after_eq) with
        ⟨z, rfl, -⟩ | ⟨z, hz, hrest⟩
      · exact absurd (List.prefix_append _ _) hword
      · cases z with
        | nil => exact absurd (by rw [hz, List.append_nil]) hword
        | cons b z =>
          rw [hz, List.mem_append, List.mem_cons, not_or, not_or] at hline
          rcases hend with hmem | hend
          · exact absurd hmem hline.1
          · rw [Cursor.atLineEnd, hrest] at hend
            exact absurd (beq_iff_eq.mp hend).symm hline.2.1

/-- A replacement of white space at line ends by other white space lays the JSON out anew: its
strings hold no line feeds, so no match reaches into one. -/
theorem relaid_cuts (hp : IsLineSpace p) (hf : ∀ m, (f m).all isSpace = true) {c : Cursor}
    {segments : List Segment} (h : Cuts p c segments) (hc : Lexed c.after) :
    Relaid c.after (segments.flatMap (Segment.rewrite f)) := by
  -- By induction on the text that is left: a string is passed at once.
  generalize hn : c.after.length = n
  induction n using Nat.strongRecOn generalizing c segments with
  | ind n ih =>
    have hnext {c' : Cursor} {w : Text} (hread : c.Reads w c') (hne : w ≠ []) :
        c'.after.length < n := by
      rw [← hn, hread.after_eq, List.length_append]
      have hpos := List.length_pos_iff.mpr hne
      omega
    have hcuts := h
    cases h with
    | stop hend =>
      rw [hend]
      exact .nil
    | @pass _ c' a g rest hread hnone hrest =>
      have hlt := hnext hread (List.cons_ne_nil a [])
      rw [hread.after_eq] at hc ⊢
      rcases hc.cases with ⟨ha, hc⟩ | ⟨ha, hc⟩ | ⟨rfl, body, r, hr, hbody, hc⟩
      · exact .mark ha (ih _ hlt hrest hc rfl)
      · have hs : [a].all isSpace = true := by
          rw [List.all_cons, ha]
          rfl
        show Relaid _ ([a] ++ (Segment.gap g :: rest).flatMap (Segment.rewrite f))
        exact .space (List.cons_ne_nil a []) hs hs (ih _ hlt hrest hc rfl)
      · have htail : c'.after = body ++ '"' :: r := hr
        have hstring : '"' :: (body ++ ['"']) ++ r = c.after := by
          rw [hread.after_eq, htail]
          simp
        have hword := Cursor.reads_behind (c := c) ⟨r, hstring⟩
        -- The string ends with its quote, so no match that begins in it ends with it.
        have hlast : ∀ b ∈ ('"' :: (body ++ ['"'])).getLast?, isSpace b = false := by
          rw [← List.cons_append, List.getLast?_concat]
          rintro _ ⟨⟩
          rfl
        obtain ⟨segments', hcuts', heq⟩ := exists_cuts_behind (f := f) hp hcuts hword
          hbody.not_mem_line hlast
        have hafter := List.append_cancel_left (hstring.trans hword.after_eq)
        have hrelaid := ih _ (hnext hword (List.cons_ne_nil _ _)) hcuts' (hafter ▸ hc) rfl
        rw [heq, htail]
        rw [← hafter] at hrelaid
        simpa using Relaid.string hbody hrelaid
    | @hit _ m rest hmatch hrest =>
      obtain ⟨u, hne, hu, hspace, -⟩ := hp c m hmatch
      rw [hu.after_eq] at hc ⊢
      show Relaid _ (f m ++ rest.flatMap (Segment.rewrite f))
      exact .space hne hspace (hf m) (ih _ (hnext hu hne) hrest (hc.of_spaces hspace) rfl)

/-- White space up to the ends of lines that becomes other white space. -/
theorem relaid_replace (hp : IsLineSpace p) (hsolid : IsSolid p)
    (hf : ∀ m, (f m).all isSpace = true) {t : Text} (ht : Lexed t) : Relaid t (p.replace f t) :=
  relaid_cuts hp hf (cuts_segments hsolid t) ht

end

/-- Spaces and tabs are white space of JSON. -/
theorem isSpace_of_isIndent {u : Text} (h : u.all isIndent = true) : u.all isSpace = true := by
  rw [List.all_eq_true] at h ⊢
  intro c hc
  have hindent := h c hc
  simp only [isIndent, Bool.or_eq_true, beq_iff_eq] at hindent
  rcases hindent with rfl | rfl <;> rfl

/-- The pattern for the ends of lines matches white space up to the end of a line. -/
theorem isLineSpace_trailingBlanks : IsLineSpace trailingBlanks := by
  intro c m h
  obtain ⟨c₁, caps₁, ⟨u, hu, hleast, hreads, rfl⟩, hend, hstop, -⟩ := (takes_of_matchAt? h).2
  rw [← hstop] at hreads hend
  refine ⟨u, ?_, hreads, isSpace_of_isIndent hu, .inr hend⟩
  rintro rfl
  cases hleast

/-- A blank line is white space. -/
theorem reads_blankLine {c c' : Cursor} {caps caps' : Captures}
    (h : Takes (seq [indent, "\n"]) c caps c' caps') :
    ∃ u, c.Reads u c' ∧ u.all isSpace = true := by
  obtain ⟨c₁, caps₁, ⟨u, hu, -, hreads, -⟩, hline⟩ := h
  obtain ⟨hbreak, -⟩ := takes_text_iff.mp hline
  refine ⟨u ++ ['\n'], hreads.trans hbreak, ?_⟩
  rw [List.all_append, isSpace_of_isIndent hu]
  rfl

/-- The rounds of blank lines pass over white space. -/
theorem reads_blankLines {c c' : Cursor} {caps caps' : Captures}
    (h : Takes (.rounds .most (seq [indent, "\n"])) c caps c' caps') :
    ∃ u, c.Reads u c' ∧ u.all isSpace = true := by
  replace h : Rounds (Takes (seq [indent, "\n"])) c caps c' caps' :=
    Rounds.mono (fun _ _ _ _ hround => takes_of_follows hround) h
  induction h with
  | none c => exact ⟨[], .refl c, rfl⟩
  | more round _ _ ih =>
    obtain ⟨u, hu, huspace⟩ := reads_blankLine round
    obtain ⟨v, hv, hvspace⟩ := ih
    exact ⟨u ++ v, hu.trans hv, by rw [List.all_append, huspace, hvspace]; rfl⟩

/-- The pattern for blank lines matches white space up to the end of a line. -/
theorem isLineSpace_blankLines : IsLineSpace blankLines := by
  intro c m h
  obtain ⟨c₁, caps₁, hline, c₂, caps₂, hfirst, c₃, caps₃, hsecond, hmore⟩ :=
    (takes_of_matchAt? h).2
  obtain ⟨hbreak, rfl⟩ := takes_text_iff.mp hline
  obtain ⟨u₁, hu₁, hspace₁⟩ := reads_blankLine hfirst
  obtain ⟨u₂, hu₂, hspace₂⟩ := reads_blankLine hsecond
  obtain ⟨u₃, hu₃, hspace₃⟩ := reads_blankLines hmore
  refine ⟨'\n' :: (u₁ ++ (u₂ ++ u₃)), List.cons_ne_nil _ _,
    hbreak.trans (hu₁.trans (hu₂.trans hu₃)), ?_, .inl List.mem_cons_self⟩
  rw [List.all_cons, List.all_append, List.all_append, hspace₁, hspace₂, hspace₃]
  rfl

end CodeTidy.Generic
