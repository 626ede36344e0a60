import CodeTidy.Proofs.Model.Fallback

/-!
# `CodeTidy.Proofs.Model.Merge`: what a reply changes in a report

A reply may hold anything under the keys of a report: nothing, values of another
kind, scores out of range. What it gives is taken, all else is taken from the
report of the rules, and what follows from the parts is computed again. The
theorems:

* `isConsistent_merge`: the scores of a merged report belong together.
* `summary_merge`, `mergedSummary_of_supplies`, `mergedSummary_of_not_supplies`:
  its summary.
* `report_is_consistent`: the reports of an assistant.
* `summary_of_notebook_speaks_of_code`: a merged report on a notebook whose
  summary is that of other texts.
-/

set_option autoImplicit false

namespace CodeTidy

open Quality (InRange Category CategoryScore Report)

namespace Assistant

/-! ### Scores -/

/-- A number that is given was given before it was wrapped. -/
theorem some_of_map_ok {x : Except Quality.RoundError Int} {n : Int}
    (h : some <$> x = .ok (some n)) : x = .ok n := by
  cases x with
  | error e => cases h
  | ok m =>
    cases h
    rfl

/-- A score that a value gives lies in the range. -/
theorem inRange_scoreOf {v : Json} {n : Int} (h : scoreOf v = .ok (some n)) : InRange n := by
  cases v with
  | string t =>
    rw [scoreOf] at h
    split at h
    next => exact Quality.range_of_clampScore (some_of_map_ok h)
    next => cases h
  | int m =>
    rw [scoreOf] at h
    split at h
    next => exact Quality.range_of_clampScore (some_of_map_ok h)
    next => cases h
  | float x => exact Quality.range_of_clampScore (some_of_map_ok h)
  | _ => cases h

/-- The merged scores are those of all categories, in their order, and lie in the range. -/
theorem mergedScores_cases {own : Report} (hown : own.IsConsistent) {reply : List (Text × Json)}
    {scores : List CategoryScore} (h : mergedScores own reply = .ok scores) :
    ∃ score : Category → Int, (∀ k, InRange (score k)) ∧
      scores = Category.all.map (fun k => ⟨k.name, score k⟩) := by
  have hall : ∀ k : Category, k ∈ Category.all := by
    intro k
    cases k <;> decide
  -- All scores of the reply could be rounded, so each category was given one or none.
  have hgiven : ∀ k : Category, ∃ given,
      scoreOf ((Json.member? reply k.key).getD .null) = .ok given := by
    intro k
    obtain ⟨s, hs⟩ := (exists_mapM_eq_ok_iff _ Category.all).mp ⟨scores, h⟩ k (hall k)
    obtain ⟨given, hgiven, -⟩ := ok_of_bind hs
    exact ⟨given, hgiven⟩
  choose given hgiven using hgiven
  refine ⟨fun k => (given k).getD (own.category k), fun k => ?_, ?_⟩
  · dsimp only
    cases hk : given k with
    | none => exact hown.inRange_category k
    | some n => exact inRange_scoreOf (hk ▸ hgiven k)
  · have hmap : mergedScores own reply = .ok (Category.all.map
        (fun k => ⟨k.name, (given k).getD (own.category k)⟩)) := by
      refine mapM_eq_ok_map fun k _ => ?_
      rw [hgiven k]
      rfl
    exact Except.ok.inj (h.symm.trans hmap)

/-- The scores of a merged report belong together. -/
theorem isConsistent_merge {own report : Report} (hown : own.IsConsistent)
    {reply : List (Text × Json)} {model : Text} (h : merge own reply model = .ok report) :
    report.IsConsistent := by
  obtain ⟨scores, hscores, rfl⟩ := merge_cases h
  obtain ⟨score, hrange, rfl⟩ := mergedScores_cases hown hscores
  exact Quality.isConsistent_of_scores rfl hrange rfl

/-! ### Summaries -/

/-- The reply has a summary that is a text and not blank; `s` is the summary without the white space
around it. -/
def SuppliesSummary (reply : List (Text × Json)) (s : Text) : Prop :=
  ∃ t, Json.member? reply "summary" = some (.string t) ∧ Text.allBlank t = false ∧ s = Text.trim t

/-- A summary that the reply supplies is taken. -/
theorem mergedSummary_of_supplies {reply : List (Text × Json)} {s : Text}
    (h : SuppliesSummary reply s) (score : Int) : mergedSummary reply score = s := by
  obtain ⟨t, ht, hblank, rfl⟩ := h
  rw [mergedSummary, ht]
  dsimp only
  rw [hblank, if_neg Bool.false_ne_true]

/-- Without a summary in the reply, that of other texts than notebooks is taken. -/
theorem mergedSummary_of_not_supplies {reply : List (Text × Json)}
    (h : ∀ s, ¬SuppliesSummary reply s) (score : Int) :
    mergedSummary reply score = Quality.summarize score false := by
  rw [mergedSummary]
  split
  next t ht =>
    split
    next => rfl
    next hblank => exact absurd ⟨t, ht, Bool.not_eq_true _ ▸ hblank, rfl⟩ (h (Text.trim t))
  next => rfl

/-- The merged report has the merged summary for its own score. -/
theorem summary_merge {own report : Report} {reply : List (Text × Json)} {model : Text}
    (h : merge own reply model = .ok report) :
    report.summary = mergedSummary reply report.score := by
  obtain ⟨_, -, rfl⟩ := merge_cases h
  rfl

/-! ### The reports of an assistant -/

/-- The assistant asks a model over the connection, which answers with an object. -/
def GetsReply (a : Assistant) (c : Connection) (reply : List (Text × Json)) : Prop :=
  ∃ config, a.model? = some config ∧ ModelClient.GivesObject config c reply

/-- An assistant gets one reply at most. -/
theorem GetsReply.unique {a : Assistant} {c : Connection} {reply reply' : List (Text × Json)}
    (h : a.GetsReply c reply) (h' : a.GetsReply c reply') : reply = reply' := by
  obtain ⟨config, hconfig, answer, hanswer, hreply⟩ := h
  obtain ⟨config', hconfig', answer', hanswer', hreply'⟩ := h'
  cases hanswer.2.unique hanswer'.2
  rw [hreply] at hreply'
  cases hreply'
  rfl

/-- The report on a text that is not blank is that of the rules, or is that one with one more error,
or is that one with a reply merged into it. -/
theorem analyze_cases {a : Assistant} {t : Text} {language : LanguageId} {includeRefactored : Bool}
    {c : Connection} {report : Report} (ht : Text.allBlank t = false)
    (h : ((a.analyze ⟨.string t, language⟩ includeRefactored).runOn c).1 = .ok report) :
    ∃ own, Quality.analyze ⟨.string t, language⟩ includeRefactored = .ok own ∧
      ((∀ reply, ¬a.GetsReply c reply) ∧
          (report = own ∨ ∃ message, report = own.addError message) ∨
        ∃ reply config, a.GetsReply c reply ∧ a.model? = some config ∧
          merge own reply config.model = .ok report) := by
  -- Without a model nobody is asked, so there is no reply.
  obtain ⟨_ | config⟩ := a
  · obtain ⟨own, hown, h⟩ := Exchange.ok_of_bind_ofExcept h
    cases h
    refine ⟨report, mapError_eq_ok_iff.mp hown, .inl ⟨?_, .inl rfl⟩⟩
    rintro reply ⟨config, hconfig, -⟩
    cases hconfig
  · obtain ⟨own, hown, h⟩ := exists_analyzeWith_of_analyze ht h
    refine ⟨own, hown, ?_⟩
    rcases analyzeWith_cases h with ⟨reply, hreply, hmerge⟩ | ⟨hnone, message, hreport⟩
    · exact .inr ⟨reply, config, ⟨config, rfl, hreply⟩, rfl, hmerge⟩
    · refine .inl ⟨?_, .inr ⟨message, hreport⟩⟩
      rintro reply ⟨config', hconfig, hreply⟩
      cases hconfig
      exact hnone reply hreply

end Assistant

/-- The parts of a report on a text that is not blank agree. It has all categories, in their order
and with scores from 0 to 100, and its score is their weighted sum; without a reply of a model they
are the averages of their metrics. A summary that a reply supplies is taken, and any other summary
follows from the score. That one speaks of a notebook if the text is one and no reply was merged,
and of code otherwise. -/
theorem report_is_consistent (a : Assistant) (t : Text) (language : LanguageId)
    (includeRefactored : Bool) (c : Connection) (report : Report) (ht : Text.allBlank t = false)
    (h : ((a.analyze ⟨.string t, language⟩ includeRefactored).runOn c).1 = .ok report) :
    report.IsConsistent ∧ ((∀ reply, ¬a.GetsReply c reply) → report.AveragesMetrics) ∧
    ∃ found, Notebook.parse? t = .ok found ∧
      (∀ reply s, a.GetsReply c reply → Assistant.SuppliesSummary reply s → report.summary = s) ∧
      ((∀ reply s, a.GetsReply c reply → ¬Assistant.SuppliesSummary reply s) →
        (report.summary = Quality.summarize report.score found.isSome ↔
          found = none ∨ ∀ reply, ¬a.GetsReply c reply)) := by
  obtain ⟨own, hown, hcases⟩ := Assistant.analyze_cases ht h
  have htext : Text.allBlank (⟨.string t, language⟩ : SourceUnit).text = false := ht
  obtain ⟨hconsistent, haverages, found, hfound, hsummary⟩ := Quality.analyze_spec htext hown
  rcases hcases with ⟨hnone, hreport⟩ | ⟨reply, config, hreply, hconfig, hmerge⟩
  · -- An error that is noted changes none of the parts.
    have hparts : report.IsConsistent ∧ report.AveragesMetrics ∧
        report.summary = Quality.summarize report.score found.isSome := by
      rcases hreport with rfl | ⟨message, rfl⟩
      · exact ⟨hconsistent, haverages, hsummary⟩
      · exact ⟨⟨hconsistent.names, hconsistent.inRange, hconsistent.score_eq⟩, haverages, hsummary⟩
    refine ⟨hparts.1, fun _ => hparts.2.1, found, hfound, ?_, ?_⟩
    · exact fun reply s hreply _ => absurd hreply (hnone reply)
    · exact fun _ => ⟨fun _ => .inr hnone, fun _ => hparts.2.2⟩
  · refine ⟨Assistant.isConsistent_merge hconsistent hmerge, ?_, found, hfound, ?_, ?_⟩
    · exact fun hnone => absurd hreply (hnone reply)
    · intro reply' s hreply' hs
      obtain rfl := hreply.unique hreply'
      rw [Assistant.summary_merge hmerge, Assistant.mergedSummary_of_supplies hs]
    · -- The summary of a merged report is the one for code, which a notebook does not get.
      intro hnot
      rw [Assistant.summary_merge hmerge,
        Assistant.mergedSummary_of_not_supplies (fun s => hnot reply s hreply),
        Quality.summarize_inj]
      constructor
      · intro hsome
        cases found with
        | none => exact .inl rfl
        | some nb => cases hsome
      · rintro (rfl | hnone)
        · rfl
        · exact absurd hreply (hnone reply)

/-- The body of a response whose answer is an object with one score, out of range. -/
def scoreBody : Text := "\x7b\"response\": \"\x7b\\\"readability_score\\\": 250\x7d\"\x7d"

/-- A reply that holds that score is merged, and has no summary. -/
theorem exists_reply_scoreBody : ∃ reply,
    ModelClient.GivesObject {} (Connection.answering scoreBody) reply ∧
      ∀ s, ¬Assistant.SuppliesSummary reply s := by
  have hseen : ((ModelClient.generateObject {} (.string []) (.string [])).runOn
      (Connection.answering scoreBody)).1.toOption.map
        (fun reply => (Json.member? reply "summary").isNone) = some true := by
    decide +kernel
  obtain ⟨reply, hreply, hnone⟩ := exists_eq_ok_of_toOption hseen
  refine ⟨reply, (ModelClient.runOn_generateObject_eq_ok_iff {} [] [] _ reply).mp hreply, ?_⟩
  rintro s ⟨t, ht, -⟩
  rw [ht] at hnone
  cases hnone

/-- The theorem at that reply: the score is brought into the range, and the summary follows. -/
theorem report_is_consistent_out_of_range :
    ∃ report, (((⟨some {}⟩ : Assistant).analyze ⟨.string "x = 1", .string "python"⟩ false).runOn
        (Connection.answering scoreBody)).1 = .ok report ∧ report.category .readability = 100 ∧
      report.IsConsistent ∧ report.summary = Quality.summarize report.score false := by
  have hseen : (((⟨some {}⟩ : Assistant).analyze ⟨.string "x = 1", .string "python"⟩ false).runOn
      (Connection.answering scoreBody)).1.toOption.map
        (fun report => report.category .readability) = some 100 := by
    decide +kernel
  obtain ⟨report, hreport, hscore⟩ := exists_eq_ok_of_toOption hseen
  obtain ⟨hconsistent, -, found, hfound, -, hsummary⟩ :=
    report_is_consistent _ "x = 1" _ _ _ report (by decide) hreport
  obtain rfl : found = none := Except.ok.inj (hfound.symm.trans rfl)
  obtain ⟨reply, hreply, hnot⟩ := exists_reply_scoreBody
  refine ⟨report, hreport, hscore, hconsistent, (hsummary ?_).mpr (.inl rfl)⟩
  intro reply' s hreply'
  obtain rfl := Assistant.GetsReply.unique ⟨{}, rfl, hreply⟩ hreply'
  exact hnot s

/-- A notebook with one line of code. -/
def lineNotebook : Text :=
  "\x7b\"cells\": [\x7b\"cell_type\": \"code\", \"source\": \"x = 1\"\x7d]\x7d"

/-- The summary of a report on a notebook, into which a reply without a summary was merged, does not
speak of a notebook. -/
theorem summary_of_notebook_speaks_of_code :
    ∃ report reply nb, (((⟨some {}⟩ : Assistant).analyze ⟨.string lineNotebook, .string "python"⟩
        false).runOn (Connection.answering scoreBody)).1 = .ok report ∧
      (⟨some {}⟩ : Assistant).GetsReply (Connection.answering scoreBody) reply ∧
      (∀ s, ¬Assistant.SuppliesSummary reply s) ∧ Notebook.parse? lineNotebook = .ok (some nb) ∧
      report.summary = Quality.summarize report.score false ∧
      report.summary ≠ Quality.summarize report.score true := by
  have hseen : (((⟨some {}⟩ : Assistant).analyze ⟨.string lineNotebook, .string "python"⟩
      false).runOn (Connection.answering scoreBody)).1.toOption.map
        (fun report => decide (report.summary = Quality.summarize report.score false)) =
          some true := by
    decide +kernel
  have hread : (Notebook.parse? lineNotebook).toOption.map Option.isSome = some true := by
    decide +kernel
  obtain ⟨report, hreport, hsummary⟩ := exists_eq_ok_of_toOption hseen
  obtain ⟨found, hfound, hsome⟩ := exists_eq_ok_of_toOption hread
  obtain ⟨nb, rfl⟩ := Option.isSome_iff_exists.mp hsome
  obtain ⟨reply, hreply, hnot⟩ := exists_reply_scoreBody
  replace hsummary := of_decide_eq_true hsummary
  refine ⟨report, reply, nb, hreport, ⟨{}, rfl, hreply⟩, hnot, hfound, hsummary, ?_⟩
  rw [hsummary]
  exact (Quality.summarize_ne report.score).symm

end CodeTidy
