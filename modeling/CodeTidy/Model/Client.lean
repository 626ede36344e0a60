import CodeTidy.Double.Notation
import CodeTidy.Json.Basic
import CodeTidy.Model.Error
import CodeTidy.Url

/-!
# `CodeTidy.Model.Client`: asking a model

The defaults name a model on the machine itself. The environment may name
others, and the command line has the last word; an empty name counts as none.

`generate` asks for a text and `generateObject` for a JSON object; `isRunning`
and `isModelAvailable` ask the server about itself. Each is an `Exchange`: it
sends requests over a connection and gives a result or a failure.
-/

set_option autoImplicit false

namespace CodeTidy

/-! ### Which model is asked, and where -/

/-- Which model is asked, where, and how. -/
structure ModelConfig where
  model : Text := "qwen2.5-coder:7b"
  baseUrl : Text := "http://localhost:11434"
  /-- The seconds after which an answer is given up. -/
  timeout : Double := 300
  /-- How freely the model answers; it is sent as it stands. -/
  temperature : Json := .float (Double.ratio 2 10)

/-- Variables and their values. -/
abbrev Environment := List (Text × Text)

/-- The value of a variable; an empty one counts as none. -/
def Environment.nonEmpty? (env : Environment) (name : Text) : Option Text :=
  (env.lookup name).filter (fun value => !value.isEmpty)

namespace ModelConfig

/-- The configuration that the environment gives. -/
def ofEnvironment (env : Environment) : ModelConfig :=
  let base : ModelConfig := {}
  { base with
    model := (env.nonEmpty? "CODELENS_MODEL").getD base.model
    baseUrl := (env.nonEmpty? "OLLAMA_HOST").getD base.baseUrl }

/-- The configuration in which a model and a host that are given replace the others. -/
def override (config : ModelConfig) (model host : Option Text) : ModelConfig :=
  let given (t : Option Text) (default : Text) : Text :=
    (t.filter (fun value => !value.isEmpty)).getD default
  { config with model := given model config.model, baseUrl := given host config.baseUrl }

/-- The address of the host, without slashes at its end. -/
def address (config : ModelConfig) : Text := Text.dropEndWhile (· == '/') config.baseUrl

/-- The configuration as a JSON value. -/
def toJson (config : ModelConfig) : Json :=
  .object [("model", .string config.model), ("base_url", .string config.baseUrl),
    ("timeout", .float config.timeout), ("temperature", config.temperature)]

end ModelConfig

/-! ### Exchanges -/

/-- A computation that sends requests over a connection, and may fail. -/
abbrev Exchange (α : Type) := ExceptT ModelFailure (StateM Connection) α

namespace Exchange

/-- The outcome of a request. -/
def send (request : HttpRequest) : Exchange HttpOutcome :=
  ExceptT.lift (modifyGet (fun connection : Connection => connection.send request))

/-- The result that is already known. -/
def ofExcept {α : Type} (x : Except ModelFailure α) : Exchange α := ExceptT.mk (pure x)

/-- The failure that a client reports. -/
def report {α : Type} (error : ModelError) : Exchange α := throw (.reported error)

/-- The failure of a reply of a shape that nobody expects. -/
def fault {α : Type} (fault : ModelFault) : Exchange α := throw (.unexpected fault)

/-- The result of an exchange, or the error that the client has reported. -/
def attempt {α : Type} (x : Exchange α) : Exchange (Except ModelError α) :=
  ExceptT.mk do
    match ← ExceptT.run x with
    | .ok result => return .ok (.ok result)
    | .error (.reported error) => return .ok (.error error)
    | .error failure => return .error failure

/-- The result over a connection, and the connection after it. -/
def runOn {α : Type} (x : Exchange α) (connection : Connection) :
    Except ModelFailure α × Connection := Id.run ((ExceptT.run x).run connection)

end Exchange

/-- The text of the body of a response, if it has one. A mark of the byte order before it does not
count; without one, zeros in the body show the encoding. -/
def HttpResponse.text? (r : HttpResponse) : Option Text :=
  match r.body with
  | '\uFEFF' :: body => some body
  | body =>
    let bytes := Text.encodeUtf8 body
    (Encoding.ofZeros bytes).decode? bytes

/-- The JSON value that the body of a response writes, if it writes one. -/
def HttpResponse.json? (r : HttpResponse) : Except Json.NestingError (Option Json) :=
  match r.text? with
  | some t => Json.parse? t
  | none => .ok none

namespace ModelClient

/-- The tokens that an answer may have, unless the caller says otherwise. -/
def defaultTokens : Json := .int 4096

/-- The value of a member of a reply, or the default if the reply has no such member. -/
def memberOf (reply : Json) (key : Text) (default : Json) : Except ModelFault Json :=
  match reply with
  | .object members => .ok ((Json.member? members key).getD default)
  | _ => .error (.noOperation reply.kindName "get")

/-- What a model is sent: the values that the caller gives, as they stand. The system text is left
out if it is empty. -/
def payload (config : ModelConfig) (prompt system maxTokens : Json) : List (Text × Json) :=
  let options : List (Text × Json) :=
    [("temperature", config.temperature), ("num_predict", maxTokens)]
  let members : List (Text × Json) := [
    ("model", .string config.model),
    ("prompt", prompt),
    ("stream", .bool false),
    ("options", .object options)]
  let systemMember : List (Text × Json) := [("system", system)]
  if system.truthy then members ++ systemMember else members

/-- The member that asks for an answer in JSON. -/
def jsonWanted : List (Text × Json) := [("format", .string "json")]

/-- What a failed request tells the caller. -/
def errorOf (config : ModelConfig) (failure : HttpFailure) : ModelError :=
  match failure.fault with
  | .timeout _ => .timedOut config.timeout
  | .noConnection => .unreachable config.address
  | .other _ => .requestFailed failure.message

/-- The answer in a response to a question. -/
def answerOf (response : HttpResponse) : Except ModelFailure Json :=
  if !response.isOk then .error (.reported (.refused response.status response.body))
  else
    match response.json? with
    | .error e => .error (.tooDeep e)
    | .ok none => .error (.reported .notJson)
    | .ok (some reply) => (memberOf reply "response" (.string [])).mapError .unexpected

/-- The request for an answer to what a model is sent. -/
def generateRequest (config : ModelConfig) (payload : List (Text × Json)) : HttpRequest :=
  ⟨.post, requestAddress (config.address ++ "/api/generate"), some (.object payload)⟩

/-- The answer of the model to what it is sent. It is a text unless the server is odd. Numbers that
are not finite cannot be sent. -/
def ask (config : ModelConfig) (payload : List (Text × Json)) : Exchange Json :=
  if Json.allMembersFinite payload then do
    match ← Exchange.send (generateRequest config payload) with
    | .error failure => Exchange.report (errorOf config failure)
    | .ok response => Exchange.ofExcept (answerOf response)
  else Exchange.report .notJson

/-- The answer of the model to a prompt. -/
def generate (config : ModelConfig) (prompt system maxTokens : Json) : Exchange Json :=
  ask config (payload config prompt system maxTokens)

/-- The JSON object that an answer writes. -/
def objectOf (answer : Json) : Except ModelFailure (List (Text × Json)) :=
  match answer with
  | .string t =>
    match Json.parse t with
    | .ok (.object members) => .ok members
    | .ok v => .error (.reported (.answerNotObject v.kindName))
    | .error .malformed => .error (.reported (.answerNotJson t))
    | .error (.tooManyDigits n) => .error (.unexpected (.tooManyDigits n))
    | .error (.tooDeep e) => .error (.tooDeep e)
  | v => .error (.unexpected (.notJsonText v.kindName))

/-- The members of the JSON object with which the model answers a prompt. -/
def generateObject (config : ModelConfig) (prompt system : Json) :
    Exchange (List (Text × Json)) := do
  let answer ← ask config (payload config prompt system defaultTokens ++ jsonWanted)
  Exchange.ofExcept (objectOf answer)

/-- The request for the models of the server. -/
def listRequest (config : ModelConfig) : HttpRequest :=
  ⟨.get, requestAddress (config.address ++ "/api/tags"), none⟩

/-- Whether the server answers. -/
def isRunning (config : ModelConfig) : Exchange Bool := do
  match ← Exchange.send (listRequest config) with
  | .ok response => return response.isOk
  | .error failure =>
    match failure.fault with
    | .other _ => Exchange.fault (.transport failure)
    | _ => return false

/-- The items over which a list of models goes: those of a list, the characters of a text, the keys
of an object. -/
def itemsOf : Json → Except ModelFault (List Json)
  | .array items => .ok items
  | .string t => .ok (t.map (fun c => .string [c]))
  | .object members => .ok (members.map (fun m => .string m.1))
  | v => .error (.noItems v.kindName)

/-- The names in a list of models. -/
def namesIn (reply : Json) : Except ModelFault (List Json) := do
  let models ← itemsOf (← memberOf reply "models" (.array []))
  models.mapM (fun m => memberOf m "name" (.string []))

/-- Whether a listed name is that of the model: the same, or the same up to a tag, or the same with
the tag of the latest version. -/
def namesModel (model : Text) (listed : Json) : Except ModelFault Bool :=
  match listed with
  | .string name =>
    .ok (name == model || name.takeWhile (· != ':') == model || name == model ++ ":latest")
  | v => .error (.noOperation v.kindName "split")

/-- Whether one of the names is that of the model; names after it are not looked at. -/
def anyNames (model : Text) : List Json → Except ModelFault Bool
  | [] => .ok false
  | listed :: rest => do
    if ← namesModel model listed then return true else anyNames model rest

/-- Whether the server lists the model. -/
def isListed (config : ModelConfig) (outcome : HttpOutcome) : Except ModelFailure Bool :=
  match outcome with
  | .error _ => .ok false
  | .ok response =>
    if !response.isOk then .ok false
    else
      match response.json? with
      | .error e => .error (.tooDeep e)
      | .ok none => .ok false
      | .ok (some reply) =>
        (do anyNames config.model (← namesIn reply)).mapError .unexpected

/-- Whether the server has the model. -/
def isModelAvailable (config : ModelConfig) : Exchange Bool := do
  let outcome ← Exchange.send (listRequest config)
  Exchange.ofExcept (isListed config outcome)

end ModelClient

end CodeTidy
