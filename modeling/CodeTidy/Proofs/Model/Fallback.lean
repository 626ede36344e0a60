import CodeTidy.Proofs.Model.Contract
import CodeTidy.Proofs.Quality.Report

/-!
# `CodeTidy.Proofs.Model.Fallback`: a result is the model's or that of the rules

A result that is asked of a model is built in one of two ways. Either the reply
of the model is used to its end, and no error is noted. Or nothing of the reply
is used: the result is that of the rules, with a note of what went wrong. The
theorems:

* `Exchange.ok_of_bind_ofExcept`, `Exchange.attempt_cases`: how an exchange comes to a
  result.
* `ModelClient.runOn_generate_eq_ok_iff`,
  `ModelClient.runOn_generateObject_eq_ok_iff`: when the client gets a text or an
  object.
* `analyzeWith_cases`, `refactoringOf_cases`, `refactorWith_cases`: the two ways to a
  result.
* `result_is_of_model_or_rules`: the statement for the assistant.
-/

set_option autoImplicit false

namespace CodeTidy

namespace Exchange

variable {α β : Type} {c : Connection} {b : β}

/-- A result behind a step that sends nothing is one behind a result of that step. -/
theorem ok_of_bind_ofExcept {x : Except ModelFailure α} {f : α → Exchange β}
    (h : ((ofExcept x >>= f).runOn c).1 = .ok b) : ∃ a, x = .ok a ∧ ((f a).runOn c).1 = .ok b := by
  rw [runOn_bind, runOn_ofExcept] at h
  cases x with
  | error e => cases h
  | ok a => exact ⟨a, rfl, h⟩

/-- An attempt that comes to a result goes on from a result or from a reported error. -/
theorem attempt_cases {x : Exchange α} {f : Except ModelError α → Exchange β}
    (h : ((x.attempt >>= f).runOn c).1 = .ok b) :
    (∃ a c', x.runOn c = (.ok a, c') ∧ ((f (.ok a)).runOn c').1 = .ok b) ∨
      ∃ e c', x.runOn c = (.error (.reported e), c') ∧ ((f (.error e)).runOn c').1 = .ok b := by
  rw [runOn_bind, runOn_attempt] at h
  rcases hx : x.runOn c with ⟨r, c'⟩
  rw [hx] at h
  cases r with
  | ok a => exact .inl ⟨a, c', rfl, h⟩
  | error failure =>
    -- Only what is reported is caught.
    cases failure with
    | reported e => exact .inr ⟨e, c', rfl, h⟩
    | unexpected fault => cases h
    | tooDeep e => cases h

end Exchange

/-- An outcome has one answer at most. -/
theorem HttpOutcome.Answers.unique {outcome : HttpOutcome} {v v' : Json} (h : outcome.Answers v)
    (h' : outcome.Answers v') : v = v' := by
  cases outcome with
  | error failure => cases h
  | ok r =>
    have hv := (ModelClient.answerOf_eq_ok_iff r v).mpr h
    rw [(ModelClient.answerOf_eq_ok_iff r v').mpr h'] at hv
    exact (Except.ok.inj hv).symm

namespace ModelClient

/-- A question that can be sent gets the answer in the outcome of the request, if there is one. -/
theorem runOn_ask_eq_ok_iff (config : ModelConfig) (members : List (Text × Json)) (c : Connection)
    (v : Json) : ((ask config members).runOn c).1 = .ok v ↔
      Json.allMembersFinite members = true ∧ c.next.Answers v := by
  rw [runOn_ask]
  split
  next hfinite =>
    cases c.next with
    | error failure => simp [HttpOutcome.Answers]
    | ok r => simpa [hfinite, HttpOutcome.Answers] using answerOf_eq_ok_iff r v
  next hfinite => simp [hfinite]

/-- An object is taken from an answer that is a text and writes one. -/
theorem objectOf_eq_ok_iff (v : Json) (reply : List (Text × Json)) :
    objectOf v = .ok reply ↔ ∃ t, v = .string t ∧ Json.parse t = .ok (.object reply) := by
  cases v with
  | string t =>
    rcases h : Json.parse t with e | v
    · cases e <;> simp [objectOf, h]
    · cases v <;> simp [objectOf, h]
  | _ => simp [objectOf]

/-- The model is asked over the connection, and its answer is a text. -/
def GivesText (config : ModelConfig) (c : Connection) (answer : Text) : Prop :=
  config.temperature.isFinite = true ∧ c.next.Answers (.string answer)

/-- The model is asked over the connection, and its answer writes an object. -/
def GivesObject (config : ModelConfig) (c : Connection) (reply : List (Text × Json)) : Prop :=
  ∃ answer, GivesText config c answer ∧ Json.parse answer = .ok (.object reply)

/-- The client gives a value exactly if it can ask and the response answers with that value. -/
theorem runOn_generate_eq_ok_iff (config : ModelConfig) (prompt system : Text) (c : Connection)
    (v : Json) :
    ((generate config (.string prompt) (.string system) defaultTokens).runOn c).1 = .ok v ↔
      config.temperature.isFinite = true ∧ c.next.Answers v := by
  rw [generate, runOn_ask_eq_ok_iff, ← canAsk_text_iff config prompt system, CanAsk]

/-- The client gives an object exactly if the model gives one over the connection. -/
theorem runOn_generateObject_eq_ok_iff (config : ModelConfig) (prompt system : Text)
    (c : Connection) (reply : List (Text × Json)) :
    ((generateObject config (.string prompt) (.string system)).runOn c).1 = .ok reply ↔
      GivesObject config c reply := by
  have hask (v : Json) : ((ask config (payload config (.string prompt) (.string system)
      defaultTokens ++ jsonWanted)).runOn c).1 = .ok v ↔
        config.temperature.isFinite = true ∧ c.next.Answers v := by
    rw [runOn_ask_eq_ok_iff, ← canAsk_iff_jsonWanted, canAsk_text_iff]
  rw [generateObject, Exchange.runOn_bind_ofExcept]
  constructor
  · intro h
    obtain ⟨v, hv, hreply⟩ := ok_of_bind h
    obtain ⟨answer, rfl, hparse⟩ := (objectOf_eq_ok_iff v reply).mp hreply
    exact ⟨answer, (hask _).mp hv, hparse⟩
  · rintro ⟨answer, hanswer, hparse⟩
    show (((ask config _).runOn c).1 >>= objectOf) = _
    rw [(hask _).mpr hanswer, ok_bind]
    exact (objectOf_eq_ok_iff _ reply).mpr ⟨answer, rfl, hparse⟩

end ModelClient

/-! ### The two ways to a report -/

/-- The rules note no errors. -/
theorem SourceUnit.errors_refactor {u : SourceUnit} {options : RefactorOptions} {r : Refactoring}
    (h : u.refactor options = .ok r) : r.errors = [] := by
  obtain ⟨_, -, h⟩ := ok_of_bind h
  obtain ⟨_, -, h⟩ := ok_of_bind h
  cases h
  rfl

namespace Assistant

/-- What a merged report is put together from. -/
theorem merge_cases {own report : Quality.Report} {reply : List (Text × Json)} {model : Text}
    (h : merge own reply model = .ok report) :
    ∃ scores, mergedScores own reply = .ok scores ∧
      report = { own with
        categories := scores
        score := Quality.overallScore scores
        issues := mergedTexts reply "issues" own.issues
        recommendations := mergedTexts reply "recommendations" own.recommendations
        summary := mergedSummary reply (Quality.overallScore scores)
        provider := model } := by
  obtain ⟨scores, hscores, h⟩ := ok_of_bind h
  cases h
  exact ⟨scores, hscores, rfl⟩

/-- A report that is asked of a model merges its reply, or notes an error if there is none. -/
theorem analyzeWith_cases {config : ModelConfig} {u : SourceUnit} {own report : Quality.Report}
    {c : Connection} (h : ((analyzeWith config u own).runOn c).1 = .ok report) :
    (∃ reply, ModelClient.GivesObject config c reply ∧
      merge own reply config.model = .ok report) ∨
    (∀ reply, ¬ModelClient.GivesObject config c reply) ∧
      ∃ message, report = own.addError message := by
  rw [analyzeWith] at h
  have hobject := ModelClient.runOn_generateObject_eq_ok_iff config
    (Prompt.analysis u.language u.text) Prompt.system c
  rcases Exchange.attempt_cases h with ⟨reply, c', hrun, h⟩ | ⟨e, c', hrun, h⟩
  · rw [hrun] at hobject
    exact .inl ⟨reply, (hobject reply).mp rfl, mapError_eq_ok_iff.mp h⟩
  · rw [hrun] at hobject
    refine .inr ⟨fun reply hreply => ?_, e.message, ?_⟩
    · cases (hobject reply).mpr hreply
    · cases h
      rfl

/-- A report that is asked of a model for a text is built from that of the rules. -/
theorem exists_analyzeWith_of_analyze {config : ModelConfig} {t : Text} {language : LanguageId}
    {includeRefactored : Bool} {c : Connection} {report : Quality.Report}
    (ht : Text.allBlank t = false)
    (h : (((⟨some config⟩ : Assistant).analyze ⟨.string t, language⟩ includeRefactored).runOn c).1 =
      .ok report) :
    ∃ own, Quality.analyze ⟨.string t, language⟩ includeRefactored = .ok own ∧
      ((analyzeWith config ⟨.string t, language⟩ own).runOn c).1 = .ok report := by
  obtain ⟨own, hown, h⟩ := Exchange.ok_of_bind_ofExcept h
  dsimp only at h
  rw [ht, if_neg Bool.false_ne_true] at h
  exact ⟨own, mapError_eq_ok_iff.mp hown, h⟩

/-- Without a model a report is that of the rules, and nothing is sent. -/
theorem runOn_analyze_none {u : SourceUnit} {includeRefactored : Bool} {own : Quality.Report}
    (h : Quality.analyze u includeRefactored = .ok own) (c : Connection) :
    ((⟨none⟩ : Assistant).analyze u includeRefactored).runOn c = (.ok own, c) := by
  rw [analyze, h]
  rfl

/-! ### The two ways to a refactoring -/

/-- An answer gives its code, or the refactoring of the rules with a note if its code is blank. -/
theorem refactoringOf_cases {config : ModelConfig} {u : SourceUnit} {options : RefactorOptions}
    {answer : Text} {r : Refactoring} (h : refactoringOf config u options answer = .ok r) :
    (Text.allBlank (Fence.code answer) = false ∧ ∃ improvements,
      Improvement.countImprovements u.text (Fence.code answer) u.family = .ok improvements ∧
      r = ⟨Fence.code answer, improvements, u.family, config.model, []⟩) ∨
    Text.allBlank (Fence.code answer) = true ∧
      ∃ own, u.refactor options = .ok own ∧ r = own.addError noCodeMessage := by
  rw [refactoringOf] at h
  split at h
  next hblank =>
    obtain ⟨own, hown, h⟩ := ok_of_bind h
    cases h
    exact .inr ⟨hblank, own, hown, rfl⟩
  next hblank =>
    obtain ⟨improvements, himprovements, h⟩ := ok_of_bind h
    cases h
    exact .inl ⟨Bool.not_eq_true _ ▸ hblank, improvements, himprovements, rfl⟩

/-- A refactoring that is asked of a model has the code of its answer, or notes an error if there
is none. -/
theorem refactorWith_cases {config : ModelConfig} {u : SourceUnit} {options : RefactorOptions}
    {r : Refactoring} {c : Connection} (h : ((refactorWith config u options).runOn c).1 = .ok r) :
    (∃ code improvements, GivesCode config c code ∧
      Improvement.countImprovements u.text code u.family = .ok improvements ∧
      r = ⟨code, improvements, u.family, config.model, []⟩) ∨
    (∀ code, ¬GivesCode config c code) ∧
      ∃ own message, u.refactor options = .ok own ∧ r = own.addError message := by
  rw [refactorWith] at h
  have hanswer := ModelClient.runOn_generate_eq_ok_iff config
    (Prompt.refactoring u.language u.text options.instructions) Prompt.system c
  rcases Exchange.attempt_cases h with ⟨v, c', hrun, h⟩ | ⟨e, c', hrun, h⟩
  · rw [hrun] at hanswer
    obtain ⟨hfinite, hv⟩ := (hanswer v).mp rfl
    cases v with
    | string answer =>
      rcases refactoringOf_cases (mapError_eq_ok_iff.mp h) with
        ⟨hcode, improvements, himprovements, rfl⟩ | ⟨hblank, own, hown, rfl⟩
      · exact .inl ⟨_, improvements, ⟨hfinite, answer, hv, rfl, hcode⟩, himprovements, rfl⟩
      · refine .inr ⟨?_, own, noCodeMessage, hown, rfl⟩
        -- The outcome has no other answer, and the code of this one is blank.
        rintro code ⟨-, answer', hanswer', rfl, hcode⟩
        cases hv.unique hanswer'
        rw [hblank] at hcode
        cases hcode
    | _ => cases h
  · rw [hrun] at hanswer
    refine .inr ⟨?_, ?_⟩
    · rintro code ⟨hfinite, answer, hv, -, -⟩
      cases (hanswer _).mpr ⟨hfinite, hv⟩
    · obtain ⟨own, hown, h⟩ := Exchange.ok_of_bind_ofExcept h
      cases h
      exact ⟨own, e.message, mapError_eq_ok_iff.mp hown, rfl⟩

/-- A text that is not blank is shown to the model. -/
theorem refactor_eq_refactorWith {config : ModelConfig} {t : Text} {language : LanguageId}
    {options : RefactorOptions} (ht : Text.allBlank t = false) :
    (⟨some config⟩ : Assistant).refactor ⟨.string t, language⟩ options =
      refactorWith config ⟨.string t, language⟩ options :=
  if_neg (fun hblank : Text.allBlank t = true => Bool.false_ne_true (ht.symm.trans hblank))

/-- Without a model a refactoring is that of the rules, and nothing is sent. -/
theorem runOn_refactor_none {u : SourceUnit} {options : RefactorOptions} {own : Refactoring}
    (h : u.refactor options = .ok own) (c : Connection) :
    ((⟨none⟩ : Assistant).refactor u options).runOn c = (.ok own, c) := by
  rw [refactor, refactorByRules, h]
  rfl

end Assistant

/-- What is asked of a model for a text that is not blank gives a result of the model or that of the
rules. A result of the model notes no error and names the model: its reply is merged into the report
of the rules, or its code is the refactored text. Any other result notes one error, and the model
has given no such reply; without the error it is the result that comes without a model. -/
theorem result_is_of_model_or_rules (config : ModelConfig) (t : Text) (language : LanguageId)
    (c : Connection) (ht : Text.allBlank t = false) :
    (∀ includeRefactored report,
      (((⟨some config⟩ : Assistant).analyze ⟨.string t, language⟩ includeRefactored).runOn c).1 =
        .ok report →
      (report.errors = [] ∧ report.provider = config.model ∧
        ∃ own reply, Quality.analyze ⟨.string t, language⟩ includeRefactored = .ok own ∧
          ModelClient.GivesObject config c reply ∧
          Assistant.merge own reply config.model = .ok report) ∨
      ((∃ message, report.errors = [message]) ∧
        (∀ reply, ¬ModelClient.GivesObject config c reply) ∧
        ∀ c', ((⟨none⟩ : Assistant).analyze ⟨.string t, language⟩ includeRefactored).runOn c' =
          (.ok { report with errors := [] }, c'))) ∧
    ∀ options r,
      (((⟨some config⟩ : Assistant).refactor ⟨.string t, language⟩ options).runOn c).1 = .ok r →
      (r.errors = [] ∧ r.provider = config.model ∧ Assistant.GivesCode config c r.code ∧
        Improvement.countImprovements t r.code (LanguageId.family language) = .ok r.improvements) ∨
      ((∃ message, r.errors = [message]) ∧ (∀ code, ¬Assistant.GivesCode config c code) ∧
        ∀ c', ((⟨none⟩ : Assistant).refactor ⟨.string t, language⟩ options).runOn c' =
          (.ok { r with errors := [] }, c')) := by
  refine ⟨fun includeRefactored report h => ?_, fun options r h => ?_⟩
  · obtain ⟨own, hown, h⟩ := Assistant.exists_analyzeWith_of_analyze ht h
    have herrors := Quality.errors_analyze hown
    -- The reply is merged, or the report of the rules has one error more than it has without a
    -- model.
    rcases Assistant.analyzeWith_cases h with ⟨reply, hreply, hmerge⟩ | ⟨hnone, message, rfl⟩
    · obtain ⟨scores, -, rfl⟩ := Assistant.merge_cases hmerge
      exact .inl ⟨herrors, rfl, own, reply, hown, hreply, hmerge⟩
    · refine .inr ⟨⟨message, ?_⟩, hnone, fun c' => ?_⟩
      · rw [Quality.Report.addError, herrors, List.nil_append]
      · rw [Assistant.runOn_analyze_none hown, Quality.Report.addError, ← herrors]
  · rw [Assistant.refactor_eq_refactorWith ht] at h
    rcases Assistant.refactorWith_cases h with ⟨code, improvements, hcode, himprovements, rfl⟩ |
      ⟨hnone, own, message, hown, rfl⟩
    · exact .inl ⟨rfl, rfl, hcode, himprovements⟩
    · have herrors := SourceUnit.errors_refactor hown
      refine .inr ⟨⟨message, ?_⟩, hnone, fun c' => ?_⟩
      · rw [Refactoring.addError, herrors, List.nil_append]
      · rw [Assistant.runOn_refactor_none hown, Refactoring.addError, ← herrors]

/-- The body of a response whose answer is an object that has a summary only. -/
def summaryBody : Text :=
  "\x7b\"response\": \"\x7b\\\"summary\\\": \\\"Fine.\\\"\x7d\"\x7d"

/-- The theorem at such a reply, which is merged, and at a server that does not answer, so that the
rules are left. -/
theorem result_is_of_model_or_rules_in_turn :
    (∃ report, (((⟨some {}⟩ : Assistant).analyze ⟨.string "x = 1", .string "python"⟩ false).runOn
        (Connection.answering summaryBody)).1 = .ok report ∧ report.summary = "Fine.".toList ∧
        report.errors = [] ∧ report.provider = "qwen2.5-coder:7b".toList) ∧
    ∃ r, (((⟨some {}⟩ : Assistant).refactor ⟨.string "x == None", .string "python"⟩ {}).runOn
        (Connection.fresh [])).1 = .ok r ∧ (∃ message, r.errors = [message]) ∧
      ∀ c', ((⟨none⟩ : Assistant).refactor ⟨.string "x == None", .string "python"⟩ {}).runOn c' =
        (.ok { r with errors := [] }, c') := by
  constructor
  · have hseen : (((⟨some {}⟩ : Assistant).analyze ⟨.string "x = 1", .string "python"⟩ false).runOn
        (Connection.answering summaryBody)).1.toOption.map
          (fun report => (report.summary, report.errors.length)) = some ("Fine.".toList, 0) := by
      decide +kernel
    obtain ⟨report, hreport, hsummary⟩ := exists_eq_ok_of_toOption hseen
    obtain ⟨hsummary, hcount⟩ := Prod.mk.inj hsummary
    rcases (result_is_of_model_or_rules {} "x = 1" (.string "python") _ (by decide)).1 false report
      hreport with ⟨herrors, hprovider, -⟩ | ⟨⟨message, herrors⟩, -⟩
    · exact ⟨report, hreport, hsummary, herrors, hprovider⟩
    · rw [herrors] at hcount
      cases hcount
  · have hseen :
        (((⟨some {}⟩ : Assistant).refactor ⟨.string "x == None", .string "python"⟩ {}).runOn
          (Connection.fresh [])).1.toOption.map (fun r => r.errors.length) = some 1 := by
      decide +kernel
    obtain ⟨r, hr, hcount⟩ := exists_eq_ok_of_toOption hseen
    rcases (result_is_of_model_or_rules {} "x == None" (.string "python") _
        (by decide)).2 {} r hr with ⟨herrors, -⟩ | ⟨herrors, -, hrules⟩
    · rw [herrors] at hcount
      cases hcount
    · exact ⟨r, hr, herrors, hrules⟩

end CodeTidy
