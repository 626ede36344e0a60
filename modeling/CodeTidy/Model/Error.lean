import CodeTidy.Double.Notation
import CodeTidy.Http
import CodeTidy.Json.Reader
import CodeTidy.Quality.Score

/-!
# `CodeTidy.Model.Error`: what goes wrong when a model is asked

A `ModelError` is reported by the client, and its callers go on without the
model. A `ModelFault` is a reply of a shape that nobody expects, and stops
them.
-/

set_option autoImplicit false

namespace CodeTidy

/-- Why a model gives no answer. -/
inductive ModelError where
  | timedOut (seconds : Double)
  | unreachable (address : Text)
  | requestFailed (message : Text)
  | refused (status : Int) (body : Text)
  /-- What would be sent, or what has come back, is not JSON. -/
  | notJson
  | answerNotJson (answer : Text)
  | answerNotObject (kind : Text)

namespace ModelError

/-- The number of characters of a text that a message quotes. -/
def maxQuoted : Nat := 200

/-- What is said about the failure. -/
def message : ModelError → Text
  | .timedOut seconds => "Model generation timed out after " ++
    FloatStyle.general.write seconds ++ "s"
  | .unreachable address =>
    "Cannot connect to Ollama at " ++ address ++ ". Is it running? Try: ollama serve"
  | .requestFailed message => "Request to Ollama failed: " ++ message
  | .refused status body =>
    "Ollama returned " ++ Text.ofInt status ++ ": " ++ body.take maxQuoted
  | .notJson => "Ollama returned a non-JSON response"
  | .answerNotJson answer => "Model returned invalid JSON: " ++ answer.take maxQuoted
  | .answerNotObject kind => "Model returned " ++ kind ++ ", expected a JSON object"

end ModelError

/-- A reply of a shape that nobody expects. -/
inductive ModelFault where
  /-- A request failed in a way that says nothing about the server. -/
  | transport (failure : HttpFailure)
  /-- A value of that kind has no such operation. -/
  | noOperation (kind operation : Text)
  /-- A value of that kind has no items. -/
  | noItems (kind : Text)
  /-- A value of that kind is read as JSON. -/
  | notJsonText (kind : Text)
  /-- A value of that kind is searched for code. -/
  | notCodeText (kind : Text)
  /-- A whole number in an answer is too long. -/
  | tooManyDigits (digits : Nat)
  /-- A score cannot be rounded. -/
  | unroundable (error : Quality.RoundError)

namespace ModelFault

/-- What is said about the fault. -/
def message : ModelFault → Text
  | .transport failure => failure.message
  | .noOperation kind operation =>
    "'" ++ kind ++ "' object has no attribute '" ++ operation ++ "'"
  | .noItems kind => "'" ++ kind ++ "' object is not iterable"
  | .notJsonText kind => "the JSON object must be str, bytes or bytearray, not " ++ kind
  | .notCodeText kind => "expected string or bytes-like object, got '" ++ kind ++ "'"
  | .tooManyDigits digits => tooManyDigitsMessage digits
  | .unroundable error => error.message

end ModelFault

/-- Why asking a model gives no result. -/
inductive ModelFailure where
  | reported (error : ModelError)
  | unexpected (fault : ModelFault)
  /-- A reply, or the text that is worked on, is nested too deeply. -/
  | tooDeep (error : Json.NestingError)

namespace ModelFailure

/-- What is said about the failure. -/
def message : ModelFailure → Text
  | .reported error => error.message
  | .unexpected fault => fault.message
  | .tooDeep error => error.message

end ModelFailure

end CodeTidy
