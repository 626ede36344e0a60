import CodeTidy.Proofs.Quality.Score
import CodeTidy.Quality.Report

/-!
# `CodeTidy.Proofs.Quality.Report`: the parts of a report agree

A report repeats itself: its score follows from those of its categories, and its
summary from its score. `Report.IsConsistent` says that the scores belong
together. The theorems:

* `ofText_cases`, `analyze_cases`: what a report of the rules is put together
  from.
* `isConsistent_of_scores`: a report whose score is computed from its categories
  is consistent.
* `summarize_inj`: a summary tells a notebook from other texts.
* `analyze_spec`: the reports of the rules.
-/

set_option autoImplicit false

namespace CodeTidy.Quality

namespace Report

/-- The categories are all there, in their order and with scores from 0 to 100, and the score of the
report is their weighted sum, which can be rounded. -/
structure IsConsistent (r : Report) : Prop where
  names : r.categories.map CategoryScore.name = Category.all.map Category.name
  inRange : ∀ s ∈ r.categories, InRange s.score
  score_eq : clampScore (weightedSum r.categories) = .ok r.score

/-- The score of each category is the average of its metrics, which can be rounded. -/
def AveragesMetrics (r : Report) : Prop :=
  ∃ ms, r.metrics = some ms ∧
    ∀ k : Category, clampScore (average (k.metrics.map ms.get)) = .ok (r.category k)

end Report

/-! ### The scores of the categories -/

/-- The categories have different names. -/
theorem name_beq (k k' : Category) : (k.name == k'.name) = decide (k = k') := by
  cases k <;> cases k' <;> decide

/-- The score of a category is the one under its name. -/
theorem category_eq {r : Report} {score : Category → Int}
    (h : r.categories = Category.all.map (fun k => ⟨k.name, score k⟩)) (k : Category) :
    r.category k = score k := by
  rw [Report.category, h, List.find?_map]
  -- No two categories have one name, so the search finds the score of the category itself.
  have hfind : Category.all.find? (fun k' => decide (k' = k)) = some k := by
    cases k <;> rfl
  have hnames : (fun s : CategoryScore => s.name == k.name) ∘
      (fun k' : Category => (⟨k'.name, score k'⟩ : CategoryScore)) =
        fun k' => decide (k' = k) := by
    funext k'
    exact name_beq k' k
  rw [hnames, hfind]
  rfl

/-- The score of a category that is in a consistent report, or is not, lies in the range. -/
theorem Report.IsConsistent.inRange_category {r : Report} (h : r.IsConsistent) (k : Category) :
    InRange (r.category k) := by
  rw [Report.category]
  cases hfind : r.categories.find? (fun s => s.name == k.name) with
  | none => exact inRange_clampWhole 0
  | some s => exact h.inRange s (List.mem_of_find?_eq_some hfind)

/-- A report whose score is computed from those of its categories is consistent. -/
theorem isConsistent_of_scores {r : Report} {score : Category → Int}
    (hcategories : r.categories = Category.all.map (fun k => ⟨k.name, score k⟩))
    (hrange : ∀ k, InRange (score k)) (hscore : r.score = overallScore r.categories) :
    r.IsConsistent := by
  have hinRange : ∀ s ∈ r.categories, InRange s.score := by
    rw [hcategories, List.forall_mem_map]
    exact fun k _ => hrange k
  refine ⟨?_, hinRange, ?_⟩
  · rw [hcategories, List.map_map]
    rfl
  · rw [hscore]
    refine clampScore_weightedSum ?_ hinRange
    rw [hcategories, List.length_map]
    decide

/-! ### The reports of the rules -/

/-- What a report on a text is put together from. -/
theorem ofText_cases {t : Text} {language : LanguageId} {r : Report}
    (h : Report.ofText t language = .ok r) :
    ∃ ms found fs, metricsOf (MetricProfile.ofFamily (LanguageId.family language)) t = .ok ms ∧
      Notebook.parse? t = .ok found ∧ findings t (LanguageId.family language) = .ok fs ∧
      r = { score := overallScore (scoreCategories ms)
            categories := scoreCategories ms
            issues := fs.map Finding.issue
            recommendations := recommendations ms found.isSome
            findings := fs
            summary := summarize (overallScore (scoreCategories ms)) found.isSome
            refactored := none
            metrics := some ms
            language
            provider := heuristicProvider
            errors := [] } := by
  obtain ⟨ms, hms, h⟩ := ok_of_bind h
  obtain ⟨found, hfound, h⟩ := ok_of_bind h
  obtain ⟨fs, hfs, h⟩ := ok_of_bind h
  cases h
  exact ⟨ms, found, fs, hms, hfound, hfs, rfl⟩

/-- A report of the rules is the one on no code, or the one on the text, with the refactored text if
that is wanted. -/
theorem analyze_cases {u : SourceUnit} {includeRefactored : Bool} {report : Report}
    (h : analyze u includeRefactored = .ok report) :
    Text.allBlank u.text = true ∧ report = Report.empty u.language ∨
      ∃ own refactored, Report.ofText u.text u.language = .ok own ∧
        report = { own with refactored := refactored } := by
  rw [analyze] at h
  split at h
  next hblank =>
    cases h
    exact .inl ⟨hblank, rfl⟩
  next =>
    -- Only the refactored text may be added to the report on the text.
    obtain ⟨own, hown, h⟩ := ok_of_bind h
    split at h
    next =>
      obtain ⟨code, -, h⟩ := ok_of_bind h
      cases h
      exact .inr ⟨own, some code, hown, rfl⟩
    next =>
      cases h
      exact .inr ⟨report, report.refactored, hown, rfl⟩

/-- The rules note no errors. -/
theorem errors_analyze {u : SourceUnit} {includeRefactored : Bool} {report : Report}
    (h : analyze u includeRefactored = .ok report) : report.errors = [] := by
  rcases analyze_cases h with ⟨-, rfl⟩ | ⟨own, refactored, hown, rfl⟩
  · rfl
  · obtain ⟨_, _, _, -, -, -, rfl⟩ := ofText_cases hown
    rfl

/-- Each category is scored by the average of its metrics. -/
theorem scoreCategories_eq (ms : MetricSet) : scoreCategories ms = Category.all.map
    (fun k => ⟨k.name, finiteScore (average (k.metrics.map ms.get))⟩) := rfl

/-- The averages of the metrics of a text can be rounded. -/
theorem clampScore_average_metrics {profile : MetricProfile} {t : Text} {ms : MetricSet}
    (h : metricsOf profile t = .ok ms) (k : Category) :
    clampScore (average (k.metrics.map ms.get)) =
      .ok (finiteScore (average (k.metrics.map ms.get))) := by
  refine clampScore_average ?_ ?_ ?_
  · cases k <;> exact List.cons_ne_nil _ _
  · rw [List.length_map]
    cases k <;> decide
  · rw [List.forall_mem_map]
    exact fun m _ => atMost_metricsOf h m

/-! ### Summaries -/

/-- Of a notebook something else is said than of another text with the same score. -/
theorem summarize_ne (score : Int) : summarize score true ≠ summarize score false := by
  rw [summarize, summarize]
  cases h : summaryBands.find? (fun band => band.1 ≤ score) with
  | none => decide
  | some band =>
    have hbands : ∀ band ∈ summaryBands,
        band.2 "notebook".toList ≠ band.2 "code".toList := by
      decide +kernel
    exact hbands band (List.mem_of_find?_eq_some h)

/-- The summaries for code and for a notebook are different. -/
theorem summarize_inj {score : Int} {isNotebook isNotebook' : Bool} :
    summarize score isNotebook = summarize score isNotebook' ↔ isNotebook = isNotebook' := by
  refine ⟨fun h => ?_, fun h => h ▸ rfl⟩
  cases isNotebook <;> cases isNotebook'
  · rfl
  · exact absurd h.symm (summarize_ne score)
  · exact absurd h (summarize_ne score)
  · rfl

/-- The scores of a report of the rules on code belong together, its summary follows from its score
and says whether the text is a notebook. -/
theorem analyze_spec {u : SourceUnit} {includeRefactored : Bool} {report : Report}
    (hu : Text.allBlank u.text = false) (h : analyze u includeRefactored = .ok report) :
    report.IsConsistent ∧ report.AveragesMetrics ∧ ∃ found, Notebook.parse? u.text = .ok found ∧
      report.summary = summarize report.score found.isSome := by
  rcases analyze_cases h with ⟨hblank, -⟩ | ⟨own, refactored, hown, rfl⟩
  · rw [hu] at hblank
    cases hblank
  · obtain ⟨ms, found, _, hms, hfound, -, rfl⟩ := ofText_cases hown
    refine ⟨isConsistent_of_scores (scoreCategories_eq ms) (fun k => inRange_finiteScore _) rfl,
      ⟨ms, rfl, fun k => ?_⟩, found, hfound, rfl⟩
    rw [category_eq (scoreCategories_eq ms) k]
    exact clampScore_average_metrics hms k

end CodeTidy.Quality
