import CodeTidy.Assistant
import CodeTidy.Model.Client
import CodeTidy.Proofs.Except
import CodeTidy.Proofs.Quality.Score

/-!
# `CodeTidy.Proofs.Model.Contract`: when a call of the model keeps its promise

An `Exchange` is a computation over a connection. `Exchange.runOn` gives its
result, and `runOn_pure`, `runOn_bind`, `runOn_ofExcept`, `runOn_report`, `runOn_fault`,
`runOn_send` and `runOn_attempt` are its equations, one for each way to build an exchange.

A client of the model promises to give a result of the right kind or to report
an error, so that the assistant can always fall back on the rules. Whether the
promise is kept depends on the reply of the server, which is untrusted on
three levels: the body, the JSON value in it, and the JSON text in the answer.
The statements say on which replies it is kept, and each is an equivalence:

* `generate_handled_iff`: a text is asked for.
* `generateObject_handled_iff`: a JSON object is asked for.
* `analyze_returns_iff` and `exists_refactorWith_iff`: the assistant gives a
  result at all.
* `modelCalls_end_as_promised_iff`: all calls together.
-/

set_option autoImplicit false

namespace CodeTidy

/-! ### What an exchange gives over a connection -/

/-- The outcome of the next request over a connection. -/
def Connection.next (c : Connection) : HttpOutcome := c.pending.head?.getD (.error exhausted)

/-- The connection after a request: the next outcome is used up. -/
def Connection.after (c : Connection) (request : HttpRequest) : Connection :=
  ⟨c.pending.tail, c.sent ++ [request]⟩

/-- A request takes the next outcome. -/
theorem Connection.send_eq (c : Connection) (request : HttpRequest) :
    c.send request = (c.next, c.after request) := by
  unfold Connection.send Connection.next Connection.after
  cases c.pending <;> rfl

namespace Exchange

variable {α β : Type}

/-- A value needs no request. -/
@[simp] theorem runOn_pure (a : α) (c : Connection) :
    (pure a : Exchange α).runOn c = (.ok a, c) := rfl

/-- Two steps in a row: the second one is taken on the connection that the first one leaves, if that
succeeds. -/
theorem runOn_bind (x : Exchange α) (f : α → Exchange β) (c : Connection) :
    (x >>= f).runOn c =
      match x.runOn c with
      | (.ok a, c') => (f a).runOn c'
      | (.error e, c') => (.error e, c') := by
  show Id.run ((ExceptT.run (x >>= f)).run c) = _
  rw [ExceptT.run_bind]
  simp only [runOn, StateT.run_bind, Id.run_bind]
  rcases h : Id.run ((ExceptT.run x).run c) with ⟨r, c'⟩
  cases r <;> rfl

/-- A result that is there needs no request. -/
@[simp] theorem runOn_ofExcept (x : Except ModelFailure α) (c : Connection) :
    (ofExcept x).runOn c = (x, c) := rfl

/-- A reported error needs no request. -/
@[simp] theorem runOn_report (e : ModelError) (c : Connection) :
    (report e : Exchange α).runOn c = (.error (.reported e), c) := rfl

/-- A fault needs no request. -/
@[simp] theorem runOn_fault (f : ModelFault) (c : Connection) :
    (fault f : Exchange α).runOn c = (.error (.unexpected f), c) := rfl

/-- A request gets the next outcome. -/
@[simp] theorem runOn_send (request : HttpRequest) (c : Connection) :
    (send request).runOn c = (.ok c.next, c.after request) := by
  show ((Except.ok (c.send request).1, (c.send request).2)
    : Except ModelFailure HttpOutcome × Connection) = _
  rw [Connection.send_eq]

/-- A last step that sends nothing works on the result alone. -/
theorem runOn_bind_ofExcept (x : Exchange α) (f : α → Except ModelFailure β) (c : Connection) :
    (x >>= fun a => ofExcept (f a)).runOn c = ((x.runOn c).1 >>= f, (x.runOn c).2) := by
  rw [runOn_bind]
  rcases x.runOn c with ⟨r, c'⟩
  cases r <;> rfl

/-- A reported error is caught, a fault is not. -/
theorem runOn_attempt (x : Exchange α) (c : Connection) :
    x.attempt.runOn c =
      match x.runOn c with
      | (.ok a, c') => (.ok (.ok a), c')
      | (.error (.reported e), c') => (.ok (.error e), c')
      | (.error failure, c') => (.error failure, c') := by
  simp only [runOn, attempt, ExceptT.run_mk, StateT.run_bind, Id.run_bind]
  rcases h : Id.run ((ExceptT.run x).run c) with ⟨r, c'⟩
  rcases r with e | a
  · cases e <;> rfl
  · rfl

end Exchange

/-! ### Promises -/

/-- A result that callers know how to handle: a value of the right kind, or a reported error. -/
def IsHandled {α : Type} (good : α → Prop) : Except ModelFailure α → Prop
  | .ok a => good a
  | .error (.reported _) => True
  | .error _ => False

/-- The value is a text. -/
def Json.IsText (v : Json) : Prop := ∃ t, v = .string t

/-- The answer in a response to a question: the member that holds it, or the empty text. -/
def HttpResponse.Answers (r : HttpResponse) (v : Json) : Prop :=
  r.isOk = true ∧ ∃ members, r.json? = .ok (some (.object members)) ∧
    v = (Json.member? members "response").getD (.string [])

/-- A response from which a text can be taken, or which the client reports: a refusal, a body that
is not JSON, or an object whose answer is a text. -/
def HttpResponse.IsRegular (r : HttpResponse) : Prop :=
  r.isOk = false ∨ r.json? = .ok none ∨ ∃ t, r.Answers (.string t)

/-- An outcome that is a failure of the transport or a regular response. -/
def HttpOutcome.IsRegular : HttpOutcome → Prop
  | .error _ => True
  | .ok r => r.IsRegular

/-- The outcome is a response with that answer. -/
def HttpOutcome.Answers : HttpOutcome → Json → Prop
  | .error _, _ => False
  | .ok r, v => r.Answers v

/-- A text that is plainly not JSON, or JSON that is good if it is an object. Numbers of too many
digits and values nested too deeply are neither. -/
def Json.IsReadable (good : List (Text × Json) → Prop) (t : Text) : Prop :=
  Json.parse t = .error .malformed ∨
    ∃ v, Json.parse t = .ok v ∧ ∀ members, v = .object members → good members

namespace ModelClient

/-- What is sent for a question can be written in standard JSON. -/
def CanAsk (config : ModelConfig) (prompt system maxTokens : Json) : Prop :=
  Json.allMembersFinite (payload config prompt system maxTokens) = true

/-- Members in a row are finite if all are. -/
theorem allMembersFinite_append (a b : List (Text × Json)) :
    Json.allMembersFinite (a ++ b) = (Json.allMembersFinite a && Json.allMembersFinite b) := by
  induction a with
  | nil => simp [Json.allMembersFinite]
  | cons m rest ih =>
    obtain ⟨k, v⟩ := m
    rw [List.cons_append, Json.allMembersFinite, Json.allMembersFinite, ih, Bool.and_assoc]

/-- The answer of a response is handled as a text exactly if the response is regular. -/
theorem answerOf_handled_iff (r : HttpResponse) :
    IsHandled Json.IsText (answerOf r) ↔ r.IsRegular := by
  unfold answerOf HttpResponse.IsRegular HttpResponse.Answers
  cases hok : r.isOk with
  | false => simp [IsHandled]
  | true =>
    rcases hjson : r.json? with e | _ | reply
    · simp [IsHandled]
    · simp [IsHandled]
    · cases reply with
      | object members =>
        simp [memberOf, IsHandled, Json.IsText, eq_comm]
      | _ => simp [memberOf, IsHandled]

/-- Only a question that can be sent reaches the server; any other is reported. -/
theorem runOn_ask (config : ModelConfig) (members : List (Text × Json)) (c : Connection) :
    ((ask config members).runOn c).1 =
      if Json.allMembersFinite members then
        match c.next with
        | .error failure => .error (.reported (errorOf config failure))
        | .ok response => answerOf response
      else .error (.reported .notJson) := by
  unfold ask
  split
  · rw [Exchange.runOn_bind, Exchange.runOn_send]
    dsimp only
    cases c.next <;> rfl
  · rfl

/-- A question for a text is handled exactly if it cannot be sent or its outcome is regular. -/
theorem ask_handled_iff (config : ModelConfig) (members : List (Text × Json)) (c : Connection) :
    IsHandled Json.IsText ((ask config members).runOn c).1 ↔
      (Json.allMembersFinite members = true → c.next.IsRegular) := by
  rw [runOn_ask]
  cases Json.allMembersFinite members with
  | false => simp [IsHandled]
  | true =>
    rcases c.next with failure | response
    · simp [IsHandled, HttpOutcome.IsRegular]
    · simpa [HttpOutcome.IsRegular] using answerOf_handled_iff response

/-- A model that is asked for a text gives a text or reports an error, unless the outcome of the
request is irregular. -/
theorem generate_handled_iff (config : ModelConfig) (prompt system maxTokens : Json)
    (c : Connection) :
    IsHandled Json.IsText ((generate config prompt system maxTokens).runOn c).1 ↔
      (CanAsk config prompt system maxTokens → c.next.IsRegular) :=
  ask_handled_iff config (payload config prompt system maxTokens) c

/-- An answer is handled as a good object exactly if it is a readable text. -/
theorem objectOf_handled_iff (good : List (Text × Json) → Prop) (answer : Json) :
    IsHandled good (objectOf answer) ↔ ∃ t, answer = .string t ∧ Json.IsReadable good t := by
  cases answer with
  | string t =>
    simp only [objectOf, Json.IsReadable, Json.string.injEq, exists_eq_left']
    rcases h : Json.parse t with e | v
    · cases e <;> simp [IsHandled]
    · cases v <;> simp [IsHandled]
  | _ => simp [objectOf, IsHandled]

/-- The answer that a question gets, if it gets one. -/
theorem answerOf_eq_ok_iff (r : HttpResponse) (v : Json) : answerOf r = .ok v ↔ r.Answers v := by
  unfold answerOf HttpResponse.Answers
  cases hok : r.isOk with
  | false => simp
  | true =>
    rcases hjson : r.json? with e | _ | reply
    · simp
    · simp
    · cases reply with
      | object members => simp [memberOf, eq_comm]
      | _ => simp [memberOf]

/-- The object in the answer of a response is handled exactly if the response is regular and the
text of its answer is readable. -/
theorem objectIn_handled_iff (good : List (Text × Json) → Prop) (r : HttpResponse) :
    IsHandled good (answerOf r >>= objectOf) ↔
      r.IsRegular ∧ ∀ t, r.Answers (.string t) → Json.IsReadable good t := by
  rw [← answerOf_handled_iff]
  simp only [← answerOf_eq_ok_iff]
  cases answerOf r with
  | error e => cases e <;> simp [IsHandled, bind, Except.bind]
  | ok v =>
    show IsHandled _ (objectOf v) ↔ _
    rw [objectOf_handled_iff]
    constructor
    · rintro ⟨t, rfl, ht⟩
      refine ⟨⟨t, rfl⟩, fun t' h => ?_⟩
      cases h
      exact ht
    · rintro ⟨⟨t, rfl⟩, h⟩
      exact ⟨t, rfl, h t rfl⟩

/-- That the answer is to be JSON adds nothing that cannot be written. -/
theorem canAsk_iff_jsonWanted (config : ModelConfig) (prompt system : Json) :
    CanAsk config prompt system defaultTokens ↔
      Json.allMembersFinite (payload config prompt system defaultTokens ++ jsonWanted) = true := by
  rw [allMembersFinite_append]
  simp [CanAsk, jsonWanted, Json.allMembersFinite, Json.isFinite]

/-- What asking for an object gives: the object in the answer, if the question can be sent and a
response comes. -/
theorem runOn_generateObject (config : ModelConfig) (prompt system : Json) (c : Connection) :
    ((generateObject config prompt system).runOn c).1 =
      if Json.allMembersFinite (payload config prompt system defaultTokens ++ jsonWanted) then
        match c.next with
        | .error failure => .error (.reported (errorOf config failure))
        | .ok response => answerOf response >>= objectOf
      else .error (.reported .notJson) := by
  show ((ask config _ >>= fun answer => Exchange.ofExcept (objectOf answer)).runOn c).1 = _
  rw [Exchange.runOn_bind_ofExcept, runOn_ask]
  split
  · cases c.next <;> rfl
  · rfl

/-- A model that is asked for an object gives a good one or reports an error, unless the outcome of
the request is irregular or the text of the answer is not readable. -/
theorem generateObject_handled_iff (good : List (Text × Json) → Prop) (config : ModelConfig)
    (prompt system : Json) (c : Connection) :
    IsHandled good ((generateObject config prompt system).runOn c).1 ↔
      (CanAsk config prompt system defaultTokens →
        c.next.IsRegular ∧ ∀ t, c.next.Answers (.string t) → Json.IsReadable good t) := by
  rw [runOn_generateObject, canAsk_iff_jsonWanted]
  split
  · rename_i hfinite
    simp only [hfinite, true_implies]
    cases c.next with
    | error failure => simp [IsHandled, HttpOutcome.IsRegular, HttpOutcome.Answers]
    | ok response => exact objectIn_handled_iff good response
  · rename_i hfinite
    simp [IsHandled, hfinite]

/-- What is sent for a question in plain text can be written unless the temperature is not
finite. -/
theorem canAsk_text_iff (config : ModelConfig) (prompt system : Text) :
    CanAsk config (.string prompt) (.string system) defaultTokens ↔
      config.temperature.isFinite = true := by
  unfold CanAsk payload
  split <;>
    simp [Json.allMembersFinite, Json.isFinite, defaultTokens]

end ModelClient

/-! ### The assistant -/

/-- The number that a value gives as a score, if it gives one, can be rounded: with a half added it
is finite. -/
def Json.IsRoundable : Json → Prop
  | .string t => ∀ x, Double.ofText? t = some x → (x + Double.ratio 1 2).isFinite = true
  | .int n => (Double.ofInt n + Double.ratio 1 2).isFinite = true
  | .float x => (x + Double.ratio 1 2).isFinite = true
  | _ => True

/-- A reply to an analysis all of whose scores can be rounded. -/
def HasRoundableScores (reply : List (Text × Json)) : Prop :=
  ∀ c : Quality.Category, ((Json.member? reply c.key).getD .null).IsRoundable

/-- Infinity with a half added stays infinite. -/
theorem Double.infinity_add_half (negative : Bool) :
    (Double.infinity negative + Double.ratio 1 2).isFinite = false := by
  have half : Double.ratio 1 2 = .finite false 4503599627370496 (-53) := by decide
  rw [half]
  rfl

namespace Assistant

/-- A value gives a score, or none, exactly if its number can be rounded. -/
theorem exists_scoreOf_iff (v : Json) : (∃ score, scoreOf v = .ok score) ↔ v.IsRoundable := by
  cases v with
  | string t =>
    cases h : Double.ofText? t with
    | none => simp [scoreOf, Json.IsRoundable, h]
    | some x =>
      simp [scoreOf, Json.IsRoundable, h, exists_map_eq_ok_iff, Quality.exists_clampScore_iff]
  | int n =>
    cases h : Double.ofInt n with
    | infinity s => simp [scoreOf, Json.IsRoundable, Json.intToDouble, h, Double.infinity_add_half]
    | _ =>
      simp [scoreOf, Json.IsRoundable, Json.intToDouble, h, exists_map_eq_ok_iff,
        Quality.exists_clampScore_iff]
  | float x => simp [scoreOf, Json.IsRoundable, exists_map_eq_ok_iff, Quality.exists_clampScore_iff]
  | _ => simp [scoreOf, Json.IsRoundable]

/-- A reply is merged exactly if its scores can be rounded. -/
theorem exists_merge_iff (report : Quality.Report) (reply : List (Text × Json)) (model : Text) :
    (∃ merged, merge report reply model = .ok merged) ↔ HasRoundableScores reply := by
  have hscores : (∃ scores, mergedScores report reply = .ok scores) ↔ HasRoundableScores reply := by
    unfold mergedScores HasRoundableScores
    rw [exists_mapM_eq_ok_iff]
    have hall : ∀ c : Quality.Category, c ∈ Quality.Category.all := by
      intro c
      cases c <;> decide
    simp only [hall, true_implies, ← exists_scoreOf_iff]
    refine forall_congr' fun c => ?_
    cases scoreOf ((Json.member? reply c.key).getD .null) <;>
      simp [bind, Except.bind, pure, Except.pure]
  rw [← hscores]
  unfold merge
  cases mergedScores report reply <;> simp [bind, Except.bind, pure, Except.pure]

/-- What follows an attempt gives a result exactly if it does so after the result or the reported
error of the attempt. -/
theorem exists_attempt_iff {α β : Type} (x : Exchange α) (f : Except ModelError α → Exchange β)
    (c : Connection) :
    (∃ b, ((x.attempt >>= f).runOn c).1 = .ok b) ↔
      match x.runOn c with
      | (.ok a, c') => ∃ b, ((f (.ok a)).runOn c').1 = .ok b
      | (.error (.reported e), c') => ∃ b, ((f (.error e)).runOn c').1 = .ok b
      | _ => False := by
  rw [Exchange.runOn_bind, Exchange.runOn_attempt]
  rcases x.runOn c with ⟨r, c'⟩
  rcases r with e | a
  · cases e <;> simp
  · simp

/-- The report with the answer of a model: an error that is reported is noted in the heuristic
report, and an object is merged into it. -/
theorem exists_analyzeWith_iff (config : ModelConfig) (u : SourceUnit) (report : Quality.Report)
    (c : Connection) :
    (∃ merged, ((analyzeWith config u report).runOn c).1 = .ok merged) ↔
      (config.temperature.isFinite = true → c.next.IsRegular ∧
        ∀ t, c.next.Answers (.string t) → Json.IsReadable HasRoundableScores t) := by
  rw [← ModelClient.canAsk_text_iff config (Prompt.analysis u.language u.text) Prompt.system,
    ← ModelClient.generateObject_handled_iff]
  unfold analyzeWith
  rw [exists_attempt_iff]
  rcases (ModelClient.generateObject config (.string (Prompt.analysis u.language u.text))
    (.string Prompt.system)).runOn c with ⟨r, c'⟩
  rcases r with e | reply
  · cases e <;> simp [IsHandled]
  · simp only [IsHandled, Exchange.runOn_ofExcept]
    rw [← exists_merge_iff report reply config.model]
    cases merge report reply config.model <;> simp

/-- An analysis that asks a model gives a report exactly if the heuristic analysis does and, where
the model is asked, its reply is usable. -/
theorem analyze_returns_iff (config : ModelConfig) (t : Text) (language : LanguageId)
    (includeRefactored : Bool) (c : Connection) :
    (∃ report, (((⟨some config⟩ : Assistant).analyze ⟨.string t, language⟩
        includeRefactored).runOn c).1 = .ok report) ↔
      (∃ report, Quality.analyze ⟨.string t, language⟩ includeRefactored = .ok report) ∧
      (Text.allBlank t = false → config.temperature.isFinite = true → c.next.IsRegular ∧
        ∀ answer, c.next.Answers (.string answer) →
          Json.IsReadable HasRoundableScores answer) := by
  unfold analyze
  rw [Exchange.runOn_bind, Exchange.runOn_ofExcept]
  cases Quality.analyze ⟨.string t, language⟩ includeRefactored with
  | error e => simp
  | ok report =>
    cases hblank : Text.allBlank t with
    | true => simp [hblank]
    | false => simp [hblank, exists_analyzeWith_iff]

/-- The model is asked over the connection, and the fenced code in its answer is not blank. -/
def GivesCode (config : ModelConfig) (c : Connection) (code : Text) : Prop :=
  config.temperature.isFinite = true ∧
    ∃ answer, c.next.Answers (.string answer) ∧ code = Fence.code answer ∧
      Text.allBlank code = false

/-- Code that a model gives only has to be compared with the unit; without any, the rules have to
give a result. -/
theorem exists_refactoringOf_iff (config : ModelConfig) (u : SourceUnit) (options : RefactorOptions)
    (answer : Text) :
    (∃ r, refactoringOf config u options answer = .ok r) ↔
      if Text.allBlank (Fence.code answer) = true then ∃ r, u.refactor options = .ok r
      else ∃ tally, Improvement.countImprovements u.text (Fence.code answer) u.family =
        .ok tally := by
  unfold refactoringOf
  split
  · rename_i hblank
    cases u.refactor options <;> simp [hblank, bind, Except.bind, pure, Except.pure]
  · rename_i hblank
    cases h : Improvement.countImprovements u.text (Fence.code answer) u.family <;>
      simp [hblank, h, bind, Except.bind, pure, Except.pure]

/-- The rules give a result over any connection exactly if they do without one. -/
theorem exists_refactorByRules_iff (u : SourceUnit) (options : RefactorOptions) (c : Connection) :
    (∃ r, ((refactorByRules u options).runOn c).1 = .ok r) ↔ ∃ r, u.refactor options = .ok r := by
  unfold refactorByRules
  rw [Exchange.runOn_ofExcept]
  cases u.refactor options <;> simp

/-- What is made of the result afterwards does not matter to whether there is one. -/
theorem exists_map_refactorByRules_iff (u : SourceUnit) (options : RefactorOptions)
    (f : Refactoring → Refactoring) (c : Connection) :
    (∃ r, ((f <$> refactorByRules u options).runOn c).1 = .ok r) ↔
      ∃ r, u.refactor options = .ok r := by
  rw [← exists_refactorByRules_iff u options c, map_eq_pure_bind, Exchange.runOn_bind]
  rcases (refactorByRules u options).runOn c with ⟨r, c'⟩
  cases r <;> simp

/-- A refactoring by a model gives a result exactly if the outcome is regular and what follows it
gives one: the comparison with the code of the answer, or the rules if there is no such code. -/
theorem exists_refactorWith_iff (config : ModelConfig) (u : SourceUnit) (options : RefactorOptions)
    (c : Connection) :
    (∃ r, ((refactorWith config u options).runOn c).1 = .ok r) ↔
      (config.temperature.isFinite = true → c.next.IsRegular) ∧
      (∀ code, GivesCode config c code →
        ∃ tally, Improvement.countImprovements u.text code u.family = .ok tally) ∧
      ((∀ code, ¬GivesCode config c code) → ∃ r, u.refactor options = .ok r) := by
  have hrun := ModelClient.runOn_ask config (ModelClient.payload config
    (.string (Prompt.refactoring u.language u.text options.instructions)) (.string Prompt.system)
    ModelClient.defaultTokens) c
  rw [Bool.eq_iff_iff.mpr (ModelClient.canAsk_text_iff config
    (Prompt.refactoring u.language u.text options.instructions) Prompt.system)] at hrun
  unfold refactorWith
  rw [exists_attempt_iff]
  unfold ModelClient.generate
  rcases hask : (ModelClient.ask config (ModelClient.payload config
    (.string (Prompt.refactoring u.language u.text options.instructions)) (.string Prompt.system)
    ModelClient.defaultTokens)).runOn c with ⟨result, c'⟩
  rw [hask] at hrun
  dsimp only at hrun
  subst hrun
  -- A question with such a temperature cannot be sent, so only the rules are left.
  cases hfinite : config.temperature.isFinite with
  | false => simp [hfinite, GivesCode, exists_map_refactorByRules_iff]
  | true =>
    cases hnext : c.next with
    | error failure =>
      simp [hfinite, hnext, GivesCode, HttpOutcome.IsRegular, HttpOutcome.Answers,
        exists_map_refactorByRules_iff]
    | ok response =>
      -- The outcome decides whether there is an answer, and the answer whether there is code in it.
      have hregular := ModelClient.answerOf_handled_iff response
      simp only [GivesCode, hfinite, hnext, HttpOutcome.IsRegular, HttpOutcome.Answers,
        ← ModelClient.answerOf_eq_ok_iff, ← hregular, true_implies, true_and, if_true]
      cases ModelClient.answerOf response with
      | error e => cases e <;> simp [IsHandled, exists_map_refactorByRules_iff]
      | ok v =>
        cases v with
        | string answer =>
          have hcode := exists_refactoringOf_iff config u options answer
          cases hblank : Text.allBlank (Fence.code answer) <;>
          cases h : refactoringOf config u options answer <;>
            simp_all [IsHandled, Json.IsText]
        | _ => simp [IsHandled, Json.IsText]

end Assistant

/-- When the calls that ask a model end as promised. Asking for a text gives a text or a reported
error, asking for an object gives an object or a reported error, and the assistant gives a result,
exactly in these cases: the outcome of the request is regular if the question can be sent; the
text of an answer is readable where an object is wanted; its scores can be rounded where it is an
analysis; and what the rules have to do can be done. -/
theorem modelCalls_end_as_promised_iff (config : ModelConfig) (prompt system maxTokens : Json)
    (t : Text) (language : LanguageId) (includeRefactored : Bool) (options : RefactorOptions)
    (c : Connection) :
    (IsHandled Json.IsText ((ModelClient.generate config prompt system maxTokens).runOn c).1 ↔
      (ModelClient.CanAsk config prompt system maxTokens → c.next.IsRegular)) ∧
    (IsHandled (fun _ => True) ((ModelClient.generateObject config prompt system).runOn c).1 ↔
      (ModelClient.CanAsk config prompt system ModelClient.defaultTokens → c.next.IsRegular ∧
        ∀ answer, c.next.Answers (.string answer) → Json.IsReadable (fun _ => True) answer)) ∧
    ((∃ report, (((⟨some config⟩ : Assistant).analyze ⟨.string t, language⟩
        includeRefactored).runOn c).1 = .ok report) ↔
      (∃ report, Quality.analyze ⟨.string t, language⟩ includeRefactored = .ok report) ∧
      (Text.allBlank t = false → config.temperature.isFinite = true → c.next.IsRegular ∧
        ∀ answer, c.next.Answers (.string answer) →
          Json.IsReadable HasRoundableScores answer)) ∧
    ((∃ r, (((⟨some config⟩ : Assistant).refactor ⟨.string t, language⟩
        options).runOn c).1 = .ok r) ↔
      if Text.allBlank t = true then ∃ r, SourceUnit.refactor ⟨.string t, language⟩ options = .ok r
      else
        (config.temperature.isFinite = true → c.next.IsRegular) ∧
        (∀ code, Assistant.GivesCode config c code → ∃ tally,
          Improvement.countImprovements t code (LanguageId.family language) = .ok tally) ∧
        ((∀ code, ¬Assistant.GivesCode config c code) →
          ∃ r, SourceUnit.refactor ⟨.string t, language⟩ options = .ok r)) := by
  refine ⟨ModelClient.generate_handled_iff config prompt system maxTokens c,
    ModelClient.generateObject_handled_iff _ config prompt system c,
    Assistant.analyze_returns_iff config t language includeRefactored c, ?_⟩
  -- The first three are known. A refactoring asks nothing about a blank text.
  unfold Assistant.refactor
  cases hblank : Text.allBlank t with
  | true => simpa [SourceUnit.text, hblank] using Assistant.exists_refactorByRules_iff _ options c
  | false =>
    have htext : (⟨.string t, language⟩ : SourceUnit).text = t := rfl
    simp only [htext, hblank, Bool.false_eq_true, if_false]
    exact Assistant.exists_refactorWith_iff config ⟨.string t, language⟩ options c

/-- The connection over which the next request is answered with a body. -/
def Connection.answering (body : Text) : Connection := fresh [.ok ⟨200, body⟩]

/-- A body that is a JSON list is an outcome that is not regular. -/
theorem not_isRegular_list : ¬(Connection.answering "[]").next.IsRegular := by
  have hjson : (⟨200, "[]"⟩ : HttpResponse).json? = .ok (some (.array [])) := rfl
  rintro (h | h | ⟨t, -, members, h, -⟩)
  · cases h
  · rw [hjson] at h
    cases h
  · rw [hjson] at h
    cases h

/-- A server that answers with a list stops every call: no text, no reported error, and neither a
report nor a refactoring. -/
theorem modelCalls_stop_at_list :
    ¬IsHandled Json.IsText ((ModelClient.generate {} (.string "Hi") (.string [])
      ModelClient.defaultTokens).runOn (Connection.answering "[]")).1 ∧
    ¬IsHandled (fun _ => True) ((ModelClient.generateObject {} (.string "Hi")
      (.string [])).runOn (Connection.answering "[]")).1 ∧
    (¬∃ report, (((⟨some {}⟩ : Assistant).analyze ⟨.string "x = 1", .string "python"⟩
      false).runOn (Connection.answering "[]")).1 = .ok report) ∧
    ¬∃ r, (((⟨some {}⟩ : Assistant).refactor ⟨.string "x = 1", .string "python"⟩
      {}).runOn (Connection.answering "[]")).1 = .ok r := by
  have hfinite : ({} : ModelConfig).temperature.isFinite = true := by decide
  have hask := (ModelClient.canAsk_text_iff {} "Hi" []).mpr hfinite
  refine ⟨fun h => ?_, fun h => ?_, fun h => ?_, fun h => ?_⟩
  · rw [ModelClient.generate_handled_iff] at h
    exact not_isRegular_list (h hask)
  · rw [ModelClient.generateObject_handled_iff] at h
    exact not_isRegular_list (h hask).1
  · rw [Assistant.analyze_returns_iff] at h
    exact not_isRegular_list (h.2 (by decide) hfinite).1
  · exact not_isRegular_list ((Assistant.exists_refactorWith_iff _ _ _ _).mp h |>.1 hfinite)

end CodeTidy
